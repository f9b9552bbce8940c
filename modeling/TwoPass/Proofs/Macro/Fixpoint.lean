import TwoPass.Proofs.Macro.Reading
import TwoPass.Proofs.Macro.Tree

/-! Lines that have been expanded. Three kinds of lines come out of an expansion: lines that call no
macro, comments that echo a call, and labels on lines of their own. None of them is a call, whatever
the arguments have put into it, so expanding them again changes nothing. -/
namespace TwoPass.Macro

variable {macros : MacroTable} {line label : Text} {call : Call}

/-- A call has a parenthesis outside its comment. -/
theorem mem_of_call? (h : call? line = some call) : '(' ∈ stripComment line := by
  have hWritten := call?_eq_some_iff.mp h
  generalize stripComment line = code at hWritten
  cases hWritten with
  | plain hList => exact hList.subset (by simp)
  | labelled _ _ _ hList =>
      have hMem := hList.subset (List.mem_cons_self ..)
      simp [hMem]

theorem isWord_of_call? (h : call? line = some call) (hLabel : call.label = some label) :
    label.all Text.isWordChar = true := by
  have hWritten := call?_eq_some_iff.mp h
  generalize stripComment line = code at hWritten
  cases hWritten with
  | plain => cases hLabel
  | labelled _ hWord =>
      cases hLabel
      exact hWord

/-- Without an opening parenthesis in front of its comment, a line calls nothing. -/
theorem callOf?_of_not_mem (h : '(' ∉ stripComment line) : callOf? macros line = none := by
  rw [Option.eq_none_iff_forall_ne_some]
  rintro ⟨call, m⟩ hCall
  exact h (mem_of_call? (callOf?_eq_some_iff.mp hCall).1)

/-- The comment that echoes a call is no call. -/
theorem callOf?_echo (line : Text) : callOf? macros ('#' :: line) = none :=
  callOf?_of_not_mem (by rw [show stripComment ('#' :: line) = [] from rfl]; simp)

/-- Nor is the line with its label. -/
theorem callOf?_label (h : label.all Text.isWordChar = true) :
    callOf? macros (label ++ [':']) = none := by
  have hWord : ∀ {c : Char}, Text.isWordChar c = false → c ∉ label := Text.not_mem_of_all h
  apply callOf?_of_not_mem
  rw [stripComment_of_not_mem (by simp [hWord (show Text.isWordChar '#' = false by decide)])]
  simp [hWord (show Text.isWordChar '(' = false by decide)]

/-- No line that a node stands for by itself is a call. -/
theorem callOf?_of_mem_shownAt {address : List Nat} {text : Text}
    (h : text ∈ (expansionTree macros line).shownAt macros address) :
    callOf? macros text = none := by
  unfold Tree.shownAt at h
  split at h
  · simp at h
  · next inner _ =>
      split at h
      · next hPlain =>
          rw [List.mem_singleton] at h
          rwa [h]
      · next label name arguments m hCall =>
          have hWord := isWord_of_call? (callOf?_eq_some_iff.mp hCall).1 rfl
          rcases List.mem_pair.mp h with rfl | rfl
          · exact callOf?_echo inner
          · exact callOf?_label hWord
      · rw [List.mem_singleton] at h
        rw [h]
        exact callOf?_echo inner

/-- A line without a call is left as it is. -/
theorem expand_of_callOf? (h : callOf? macros line = none) : expand macros line = pure [line] := by
  rw [expand, expandWithin, h]

/-- Lines that are left as they are stay as they are together. -/
theorem flatMap_expand {lines : List Text} (h : ∀ line ∈ lines, expand macros line = pure [line]) :
    Logged.flatMap (expand macros) lines = pure lines := by
  induction lines with
  | nil => rfl
  | cons line rest ih =>
      have hRest := ih fun other hMem => h other (by simp [hMem])
      rw [Logged.flatMap, h line (by simp), hRest]
      rfl

/-- What comes out of an expansion is expanded through and through. Each of its lines expands to
itself without a further word, so expanding all of them changes nothing, and none of them is written
as a call of a macro in the table. The echoes are no calls either, because they are comments. -/
theorem expansion_is_complete {out : List Text} (h : (expand macros line).result = .ok out) :
    (∀ text ∈ out, expand macros text = pure [text]) ∧
    Logged.flatMap (expand macros) out = pure out ∧
    ∀ text ∈ out, ¬Invokes macros text := by
  have hCall : ∀ text ∈ out, callOf? macros text = none := by
    intro text hMem
    obtain ⟨address, hShown⟩ := exists_mem_shownAt h hMem
    exact callOf?_of_mem_shownAt hShown
  have hFixed : ∀ text ∈ out, expand macros text = pure [text] :=
    fun text hMem => expand_of_callOf? (hCall text hMem)
  exact ⟨hFixed, flatMap_expand hFixed, fun text hMem => callOf?_eq_none_iff.mp (hCall text hMem)⟩

/-- A macro that calls the macro named by its first argument, and one that takes a string. -/
def indirect : MacroTable :=
  ⟨[(['f'], ⟨['f'], [['a'], ['b']], ["a(b)".toList, "x: b".toList]⟩),
    (['g'], ⟨['g'], [['p']], ["STRING p".toList]⟩)]⟩

def indirectLines : List Text :=
  ["#here: f(g, \"#(\") # g(1)", "here:", "#g(\"#(\")", "STRING \"#(\"", "x: \"#(\""].map
    String.toList

/-- The arguments bring a call, a quoted hash sign and an unmatched parenthesis, and the comment
looks like a call. -/
theorem expansion_is_complete_indirect :
    (expand indirect "here: f(g, \"#(\") # g(1)".toList).result = .ok indirectLines ∧
      (∀ text ∈ indirectLines, expand indirect text = pure [text]) ∧
      Logged.flatMap (expand indirect) indirectLines = pure indirectLines ∧
      ∀ text ∈ indirectLines, ¬Invokes indirect text := by
  have hExpand : (expand indirect "here: f(g, \"#(\") # g(1)".toList).result =
      .ok indirectLines := by rfl
  exact ⟨hExpand, expansion_is_complete hExpand⟩

end TwoPass.Macro
