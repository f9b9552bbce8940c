import TwoPass.Expression.Bytes
import TwoPass.Proofs.Expression.Completeness
import TwoPass.Proofs.Text.Encoding

/-! Cursors between characters. A cursor stands in front of a rest of the source if its index counts
the bytes of what is before that rest. Gaps, marks and words have characters of one byte only, so a
cursor that goes over them byte by byte stands in front of a rest again. -/
namespace TwoPass.Expression

/-- None of the classes of characters that readers ask for goes beyond ASCII. -/
theorem onlyAscii_isGap : Text.OnlyAscii isGap := by
  intro c h
  simp only [isGap, Bool.or_eq_true, beq_iff_eq] at h
  rcases h with (((rfl | rfl) | rfl) | rfl) | rfl <;> decide

theorem onlyAscii_isDigit : Text.OnlyAscii Char.isDigit := by
  intro c h
  simp only [Char.isDigit, Bool.and_eq_true, decide_eq_true_eq] at h
  exact UInt32.le_trans h.2 (by decide)

theorem onlyAscii_isAlpha : Text.OnlyAscii Char.isAlpha := by
  intro c h
  rcases Bool.or_eq_true_iff.mp h with hUpper | hLower
  · have hRange : c.val ≥ 'A'.val ∧ c.val ≤ 'Z'.val := of_decide_eq_true hUpper
    exact UInt32.le_trans hRange.2 (by decide)
  · have hRange : c.val ≤ 'z'.val := of_decide_eq_true (Bool.and_eq_true_iff.mp hLower).2
    exact UInt32.le_trans hRange (by decide)

theorem onlyAscii_isNameStart : Text.OnlyAscii isNameStart := by
  intro c h
  simp only [isNameStart, Bool.or_eq_true, beq_iff_eq] at h
  rcases h with h | rfl
  · exact onlyAscii_isAlpha c h
  · decide

/-- Words consist of ASCII as well. -/
theorem onlyAscii_isNameChar : Text.OnlyAscii isNameChar := by
  intro c h
  simp only [isNameChar, Char.isAlphanum, Bool.or_eq_true, beq_iff_eq] at h
  rcases h with (h | h) | rfl
  · exact onlyAscii_isAlpha c h
  · exact onlyAscii_isDigit c h
  · decide

namespace Bytes

section Runs

variable {α β : Type} (c : Cursor)

@[simp] theorem at_pure (a : α) : Scan.at (pure a) c = (.ok a, c) := rfl

@[simp] theorem at_get : Scan.at get c = (.ok c, c) := rfl

@[simp] theorem at_set (d : Cursor) : Scan.at (set d) c = (.ok ⟨⟩, d) := rfl

@[simp] theorem at_lift (x : Except Error α) : Scan.at (liftM x : Scan α) c = (x, c) := rfl

/-- The second scan goes on from where the first one has ended. -/
theorem at_bind (scan : Scan α) (next : α → Scan β) : (scan >>= next).at c =
    match scan.at c with
    | (.ok a, d) => (next a).at d
    | (.error e, d) => (.error e, d) := by
  change (match scan.at c with | (r, d) => (ExceptT.bindCont next r).run d : _ × _) = _
  rcases scan.at c with ⟨_ | _, d⟩ <;> rfl

end Runs

/-- Some index of the source is a character boundary, with the given rest behind it. -/
def Splits (source : Text) (index : Nat) (rest : Text) : Prop :=
  ∃ front, source = front ++ rest ∧ Text.utf8Size front = index

/-- The cursor stands in front of a rest of the source, and has stood at character boundaries
only. -/
structure Stands (source rest : Text) (c : Cursor) : Prop where
  here : Splits source c.pos rest
  passed : ∀ index ∈ c.passed, ∃ before, Splits source index before

/-- Decoding undoes encoding. -/
theorem decode_utf8 (s : Text) : decode (Text.utf8 s) = s := by
  have hValid : (Text.utf8 s).toByteArray.IsValidUTF8 := ⟨s, rfl⟩
  have hText : String.fromUTF8 _ hValid = String.ofList s := by
    rw [← String.toByteArray_inj, String.toByteArray_ofList]
    rfl
  rw [decode, String.fromUTF8?, dif_pos hValid, hText]
  exact String.toList_ofList

namespace Stands

variable {source rest : Text} {c : Cursor}

/-- At the start the whole source is ahead. -/
theorem start (source : Text) : Stands source source .start where
  here := ⟨[], rfl, rfl⟩
  passed := by
    intro index hIndex
    cases hIndex

/-- Characters of one byte each lead from boundary to boundary. -/
theorem advance {taken : Text} (h : Stands source (taken ++ rest) c)
    (hAscii : ∀ d ∈ taken, d.val ≤ 127) : Stands source rest (c.advance taken.length) := by
  obtain ⟨front, hSource, hPos⟩ := h.here
  refine ⟨⟨front ++ taken, ?_, ?_⟩, ?_⟩
  · rw [hSource, List.append_assoc]
  · rw [Text.utf8Size_append, hPos, Text.utf8Size_of_ascii hAscii]
    rfl
  · intro index hIndex
    rcases List.mem_cons.mp hIndex with rfl | hBefore
    · exact ⟨_, h.here⟩
    · exact h.passed index hBefore

/-- One character of ASCII is one byte. -/
theorem advance_one {d : Char} (h : Stands source (d :: rest) c) (hAscii : d.val ≤ 127) :
    Stands source rest (c.advance 1) :=
  @advance source rest c [d] h (by simpa using hAscii)

/-- The bytes ahead of the cursor are those of the rest. -/
theorem drop_eq (h : Stands source rest c) : (Text.utf8 source).drop c.pos = Text.utf8 rest := by
  obtain ⟨front, rfl, hPos⟩ := h.here
  rw [← hPos, ← Text.length_utf8, Text.utf8_append, List.drop_left]

/-- The byte at the cursor is the first one of the next character. -/
theorem byteAt_eq (h : Stands source rest c) :
    byteAt (Text.utf8 source) c.pos = rest.head?.map Text.lead := by
  rw [byteAt, ← List.head?_drop, h.drop_eq]
  cases rest with
  | nil => rfl
  | cons d rest =>
      obtain ⟨byte, others, hBytes, hLead, -⟩ := Text.exists_utf8_cons d rest
      rw [hBytes, List.head?_cons, Option.map_some, hLead]
      rfl

/-- Going on over bytes of ASCII is going on over characters. The induction is on the characters:
each that fits has a single byte. -/
theorem advanceWhile {fits : Char → Bool} (hAscii : Text.OnlyAscii fits)
    (h : Stands source rest c) :
    Stands source (rest.dropWhile fits) (c.advanceWhile fits (Text.utf8 rest)) := by
  induction rest generalizing c with
  | nil => exact h
  | cons d rest ih =>
      obtain ⟨byte, others, hBytes, hLead, hOthers⟩ := Text.exists_utf8_cons d rest
      rw [hBytes, Cursor.advanceWhile, hLead, hAscii.lead, List.dropWhile_cons]
      split
      · next hFits =>
          rw [hOthers (hAscii d hFits)]
          exact ih (h.advance_one (hAscii d hFits))
      · exact h

/-- The bytes between two places of a cursor are those of the characters between them. -/
theorem take_eq {word : Text} {d : Cursor} (h : Stands source (word ++ rest) c)
    (hStop : Stands source rest d) :
    (Text.utf8 (word ++ rest)).take (d.pos - c.pos) = Text.utf8 word := by
  obtain ⟨front, hSource, hPos⟩ := h.here
  obtain ⟨before, hSplit, hEnd⟩ := hStop.here
  have hBoth : before ++ rest = front ++ word ++ rest := by
    rw [← hSplit, hSource, List.append_assoc]
  have hBefore := List.append_cancel_right hBoth
  rw [← hEnd, ← hPos, hBefore, Text.utf8Size_append, Nat.add_sub_cancel_left, ← Text.length_utf8,
    Text.utf8_append, List.take_left]

/-- The word that the bytes decode to is the one that the characters spell. -/
theorem at_takeWord (h : Stands source rest c) : ∃ d,
    (takeWord (Text.utf8 source)).at c = (.ok (rest.takeWhile isNameChar), d) ∧
      Stands source (rest.dropWhile isNameChar) d := by
  have hStop := h.advanceWhile onlyAscii_isNameChar
  have hParts : rest.takeWhile isNameChar ++ rest.dropWhile isNameChar = rest :=
    List.takeWhile_append_dropWhile
  have hWord := take_eq (hParts.symm ▸ h) hStop
  rw [hParts] at hWord
  refine ⟨_, ?_, hStop⟩
  simp only [takeWord, at_bind, at_get, at_set, at_pure, h.drop_eq, hWord, decode_utf8]

end Stands

/-- The cursor stands in front of a rest up to gaps, which it may have skipped or not. -/
def Near (source rest : Text) (c : Cursor) : Prop :=
  ∃ here, Stands source here c ∧ Expression.skipGaps here = Expression.skipGaps rest

section Near

variable {source rest : Text} {c : Cursor}

theorem Stands.near (h : Stands source rest c) : Near source rest c := ⟨rest, h, rfl⟩

/-- A cursor behind the gaps is near what starts with them. -/
theorem Stands.near_of_skipGaps (h : Stands source (Expression.skipGaps rest) c) :
    Near source rest c :=
  ⟨_, h, skipGaps_skipGaps rest⟩

theorem Near.of_skipGaps (h : Near source rest c) : Near source (Expression.skipGaps rest) c := by
  obtain ⟨here, hStands, hSkip⟩ := h
  exact ⟨here, hStands, hSkip.trans (skipGaps_skipGaps rest).symm⟩

/-- Whether or not gaps have been skipped before, now they are. -/
theorem Near.at_skipGaps (h : Near source rest c) : ∃ d,
    (skipGaps (Text.utf8 source)).at c = (.ok ⟨⟩, d) ∧
      Stands source (Expression.skipGaps rest) d := by
  obtain ⟨here, hStands, hSkip⟩ := h
  have hNext := hStands.advanceWhile onlyAscii_isGap
  rw [← Expression.skipGaps, hSkip] at hNext
  refine ⟨_, ?_, hNext⟩
  rw [← hStands.drop_eq]
  rfl

end Near

section Marks

variable {source rest : Text} {c : Cursor} {mark : Char}

/-- A mark is taken off the rest, or the cursor stands in front of another token. -/
inductive Takes (source rest : Text) : Option Text → Except Error Bool × Cursor → Prop
  | taken {beyond : Text} {c : Cursor} (h : Stands source beyond c) :
      Takes source rest (some beyond) (.ok true, c)
  | missing {c : Cursor} (h : Stands source (Expression.skipGaps rest) c) :
      Takes source rest none (.ok false, c)

/-- What follows a mark, whatever that is. -/
def next? (mark : Char) (s : Text) : Option Text :=
  match Expression.skipGaps s with
  | [] => none
  | d :: rest => if d = mark then some rest else none

/-- A mark that was found stands behind the gaps. -/
theorem skipGaps_of_next? {mark : Char} {s rest : Text} (h : next? mark s = some rest) :
    Expression.skipGaps s = mark :: rest := by
  unfold next? at h
  split at h
  · cases h
  · next d beyond hSkip =>
      split at h
      · next hMark =>
          cases h
          rw [hSkip, hMark]
      · cases h

theorem skipGaps_ne_of_next? {mark : Char} {s : Text} (h : next? mark s = none) (rest : Text) :
    Expression.skipGaps s ≠ mark :: rest := by
  intro hSkip
  simp [next?, hSkip] at h

/-- The next byte is a mark of ASCII only if the next character is. -/
theorem map_lead_eq_iff (hMark : mark.val ≤ 127) (s : Text) :
    s.head?.map Text.lead = some mark ↔ s.head? = some mark := by
  cases s with
  | nil => rfl
  | cons d s => simp [Text.lead_eq_iff hMark]

/-- The byte behind a mark is looked at only where the mark is, so it is the first one of a
character too. -/
theorem Near.at_eatBefore (h : Near source rest c) (hMark : mark.val ≤ 127)
    (fits : Option Char → Bool) (width : Nat) : ∃ d, Stands source (Expression.skipGaps rest) d ∧
      (eatBefore (Text.utf8 source) fits width mark).at c =
        if (Expression.skipGaps rest).head? = some mark ∧
          fits ((Expression.skipGaps rest).tail.head?.map Text.lead) = true
        then (.ok true, d.advance width) else (.ok false, d) := by
  obtain ⟨d, hSkip, hStands⟩ := h.at_skipGaps
  refine ⟨d, hStands, ?_⟩
  simp only [eatBefore, at_bind, hSkip, at_get, hStands.byteAt_eq, map_lead_eq_iff hMark]
  generalize Expression.skipGaps rest = here at hStands
  by_cases hFirst : here.head? = some mark
  · obtain ⟨beyond, rfl⟩ := List.head?_eq_some_iff.mp hFirst
    have hNext := (hStands.advance_one hMark).byteAt_eq
    change byteAt _ (d.pos + 1) = _ at hNext
    rw [hNext, List.tail_cons]
    split <;> rfl
  · simp only [hFirst, false_and, if_false]
    rfl

/-- A mark of a single byte is taken off if what is behind it fits. -/
theorem Near.at_eatOne (h : Near source rest c) (hMark : mark.val ≤ 127)
    (fits : Option Char → Bool) :
    Takes source rest
      (match Expression.skipGaps rest with
        | [] => none
        | first :: beyond =>
          if first = mark ∧ fits (beyond.head?.map Text.lead) = true then some beyond else none)
      ((eatBefore (Text.utf8 source) fits 1 mark).at c) := by
  obtain ⟨d, hStands, hEat⟩ := h.at_eatBefore hMark fits 1
  rw [hEat]
  cases hRest : Expression.skipGaps rest with
  | nil =>
      simp only [List.head?_nil, reduceCtorEq, false_and, if_false]
      exact .missing hStands
  | cons first beyond =>
      simp only [List.head?_cons, Option.some.injEq, List.tail_cons]
      split
      · next hFirst =>
          rw [hRest, hFirst.1] at hStands
          exact .taken (hStands.advance_one hMark)
      · exact .missing hStands

theorem Near.at_eat (h : Near source rest c) (hMark : mark.val ≤ 127) :
    Takes source rest (next? mark rest) ((eat (Text.utf8 source) mark).at c) := by
  have hTakes := h.at_eatOne hMark fun _ => true
  simp only [and_true] at hTakes
  exact hTakes

/-- A mark that stands alone is taken off on both sides, or on neither. -/
theorem Near.at_eatSingle (h : Near source rest c) (hMark : mark.val ≤ 127) :
    Takes source rest (single? mark rest) ((eatSingle (Text.utf8 source) mark).at c) := by
  have hTakes := h.at_eatOne hMark (· != some mark)
  simp only [bne_iff_ne, ne_eq, map_lead_eq_iff hMark] at hTakes
  exact hTakes

/-- Two marks are two bytes, and the cursor goes over both at once. -/
theorem Near.at_eatDouble (h : Near source rest c) (hMark : mark.val ≤ 127) :
    Takes source rest (double? mark rest) ((eatDouble (Text.utf8 source) mark).at c) := by
  obtain ⟨d, hStands, hEat⟩ := h.at_eatBefore hMark (· == some mark) 2
  simp only [beq_iff_eq, map_lead_eq_iff hMark] at hEat
  rw [eatDouble, hEat]
  rcases hRest : Expression.skipGaps rest with _ | ⟨first, _ | ⟨second, beyond⟩⟩
  · simp only [double?, hRest, List.head?_nil, reduceCtorEq, false_and, if_false]
    exact .missing hStands
  · simp only [double?, hRest, List.tail_cons, List.head?_nil, reduceCtorEq, and_false, if_false]
    exact .missing hStands
  · simp only [double?, hRest, List.head?_cons, Option.some.injEq, List.tail_cons]
    split
    · next hBoth =>
        rw [hRest, hBoth.1, hBoth.2] at hStands
        exact .taken (@Stands.advance source beyond d [mark, mark] hStands (by simpa using hMark))
    · exact .missing hStands

end Marks

end Bytes

end TwoPass.Expression
