import TwoPass.Text.Lines

namespace TwoPass.Text

/-- Texts one below the other, each of them ended by a line feed. -/
def unlines (texts : List Text) : Text := texts.flatMap (· ++ ['\n'])

theorem unlines_cons (text : Text) (rest : List Text) :
    unlines (text :: rest) = text ++ '\n' :: unlines rest := by
  simp [unlines]

/-- A line ends at the first line feed. -/
theorem linesFrom_append (current rest : Text) {line : Text} (h : '\n' ∉ line) :
    linesFrom current (line ++ '\n' :: rest) =
      dropReturn (current.reverse ++ line) :: linesFrom [] rest := by
  induction line generalizing current with
  | nil => simp [linesFrom]
  | cons c line ih =>
      have hFirst : c ≠ '\n' := fun he => h (by simp [he])
      have hLine : '\n' ∉ line := fun hMem => h (by simp [hMem])
      rw [List.cons_append, linesFrom, if_neg hFirst, ih _ hLine]
      simp

/-- Each text comes back, unless it has a line feed inside or a carriage return at its end. -/
theorem lines_unlines {texts : List Text} (hFeed : ∀ text ∈ texts, '\n' ∉ text)
    (hReturn : ∀ text ∈ texts, text.getLast? ≠ some '\r') : lines (unlines texts) = texts := by
  induction texts with
  | nil => rfl
  | cons text rest ih =>
      have hText : dropReturn text = text := if_neg (hReturn text (by simp))
      have hRest : linesFrom [] (unlines rest) = rest :=
        ih (fun other hMem => hFeed other (by simp [hMem]))
          (fun other hMem => hReturn other (by simp [hMem]))
      rw [lines, unlines_cons, linesFrom_append [] _ (hFeed text (by simp)), hRest,
        List.reverse_nil, List.nil_append, hText]

/-- Dropping a return adds nothing. -/
theorem dropReturn_subset (line : Text) : dropReturn line ⊆ line := by
  unfold dropReturn
  split
  · exact List.dropLast_subset line
  · exact List.Subset.refl line

/-- No line holds a line feed, provided the text collected so far does not. -/
theorem not_mem_of_mem_linesFrom {current source line : Text} (hCurrent : '\n' ∉ current)
    (h : line ∈ linesFrom current source) : '\n' ∉ line := by
  induction source generalizing current with
  | nil =>
      rw [linesFrom] at h
      split at h
      · simp at h
      · rw [List.mem_singleton] at h
        simpa [h] using hCurrent
  | cons c rest ih =>
      rw [linesFrom] at h
      split at h
      · rcases List.mem_cons.mp h with rfl | hRest
        · intro hMem
          exact hCurrent (List.mem_reverse.mp (dropReturn_subset _ hMem))
        · exact ih (by simp) hRest
      · next hc => exact ih (by simpa [hCurrent] using Ne.symm hc) h

/-- No line has a line feed inside. -/
theorem not_mem_of_mem_lines {source line : Text} (h : line ∈ lines source) : '\n' ∉ line :=
  not_mem_of_mem_linesFrom (by simp) h

end TwoPass.Text
