import Mathlib.Data.List.TakeWhile
import TwoPass.Text.Split
import TwoPass.Text.WordChar

/-! Parts of a text that are found again where it is known what stands around them: a text between
blanks, a word in front of something else, the items between commas, what lies on both sides of a
mark. Blanks and words do not mix, because no blank is a word character. -/
namespace TwoPass.Text

/-- A text of one class holds no character outside it. -/
theorem not_mem_of_all {p : Char → Bool} {s : Text} {c : Char} (h : s.all p = true)
    (hc : p c = false) : c ∉ s := by
  intro hMem
  rw [List.all_eq_true.mp h c hMem] at hc
  cases hc

theorem ne_of_isBlank {c d : Char} (hc : isBlank c = true) (hd : isBlank d = false) : c ≠ d := by
  rintro rfl
  rw [hc] at hd
  cases hd

/-- The stretches outside ASCII in which the blanks lie have no alphanumeric character. -/
theorem alphanumericRanges_apart :
    ∀ range ∈ alphanumericRanges,
      ∀ stretch ∈ [(0x80, 0xa0), (0x1680, 0x1680), (0x2000, 0x205f), (0x3000, 0x3000)],
        range.2 < stretch.1 ∨ stretch.2 < range.1 := by
  decide +kernel

/-- A blank ends a word. -/
theorem isWordChar_of_isBlank {c : Char} (h : isBlank c = true) : isWordChar c = false := by
  simp only [isBlank, Bool.or_eq_true, Bool.and_eq_true, decide_eq_true_eq, beq_iff_eq] at h
  by_cases hAscii : c.toNat < 0x80
  · have hCode : c.toNat ∈ [0x09, 0x0a, 0x0b, 0x0c, 0x0d, 0x20] := by
      simp only [List.mem_cons, List.not_mem_nil, or_false]
      omega
    rw [← Char.ofNat_toNat c]
    generalize c.toNat = n at hCode
    revert n
    decide
  · rw [isWordChar, if_neg hAscii, inRanges, List.any_eq_false]
    intro range hMem hInside
    have hApart := alphanumericRanges_apart range hMem
    simp only [List.forall_mem_cons, List.not_mem_nil, false_implies, implies_true] at hApart
    simp only [Bool.and_eq_true, decide_eq_true_eq] at hInside
    omega

/-- Blanks have no case. -/
theorem toUpper_of_isBlank {c : Char} (h : isBlank c = true) : c.toUpper = c := by
  unfold Char.toUpper
  split
  · next hLower =>
      simp only [isBlank, Bool.or_eq_true, Bool.and_eq_true, decide_eq_true_eq, beq_iff_eq] at h
      have hLow : 'a'.toNat ≤ c.toNat := UInt32.le_iff_toNat_le.mp hLower.1
      have hHigh : c.toNat ≤ 'z'.toNat := UInt32.le_iff_toNat_le.mp hLower.2
      simp only [Char.reduceToNat] at hLow hHigh
      omega
  · rfl

section

variable {s t lead trail word rest : Text} {c mark : Char}

/-- A text in front of which a mark does not occur ends before the mark. -/
theorem exists_of_append_eq {first second : Text} (h : first ++ second = s ++ mark :: t)
    (hMark : mark ∉ first) : ∃ rest, s = first ++ rest ∧ second = rest ++ mark :: t := by
  induction first generalizing s with
  | nil => exact ⟨s, rfl, h⟩
  | cons c first ih =>
      rw [List.mem_cons, not_or] at hMark
      cases s with
      | nil => exact absurd (List.head_eq_of_cons_eq h).symm hMark.1
      | cons d s =>
          obtain ⟨rfl, hTail⟩ := List.cons.inj h
          obtain ⟨rest, rfl, hSecond⟩ := ih hTail hMark.2
          exact ⟨rest, rfl, hSecond⟩

theorem startsBlank_append (h : s ≠ []) (t : Text) : startsBlank (s ++ t) = startsBlank s := by
  cases s with
  | nil => exact absurd rfl h
  | cons c s => rfl

/-- What trimming takes off at the front is blank. -/
theorem exists_trimStart (s : Text) :
    ∃ lead, lead.all isBlank = true ∧ s = lead ++ trimStart s :=
  ⟨s.takeWhile isBlank, List.all_takeWhile, List.takeWhile_append_dropWhile.symm⟩

/-- So is what it takes off at the end. -/
theorem exists_trimEnd (s : Text) :
    ∃ trail, trail.all isBlank = true ∧ s = trimEnd s ++ trail := by
  obtain ⟨lead, hLead, hReverse⟩ := exists_trimStart s.reverse
  refine ⟨lead.reverse, by simpa using hLead, ?_⟩
  rw [← List.reverse_inj, hReverse]
  simp [trimEnd, trimStart]

/-- How many blanks stand in front does not matter. -/
theorem trimStart_blanks_append (h : lead.all isBlank = true) (s : Text) :
    trimStart (lead ++ s) = trimStart s :=
  List.dropWhile_append_of_pos (List.all_eq_true.mp h)

/-- Nor how many stand behind. -/
theorem trimEnd_append_blanks (h : trail.all isBlank = true) (s : Text) :
    trimEnd (s ++ trail) = trimEnd s := by
  rw [trimEnd, List.reverse_append, List.dropWhile_append_of_pos, trimEnd]
  simpa using h

/-- Trimming stops at the first character that is not blank. -/
theorem trimStart_cons (h : isBlank c = false) (s : Text) : trimStart (c :: s) = c :: s :=
  List.dropWhile_cons_of_neg (by simp [h])

/-- Blanks around a text do not show after trimming. -/
theorem trim_blanks_append (h : lead.all isBlank = true) (s : Text) :
    trim (lead ++ s) = trim s := by
  rw [trim, trimStart_blanks_append h, trim]

theorem trim_append_blanks (h : trail.all isBlank = true) (s : Text) :
    trim (s ++ trail) = trim s := by
  cases hStart : trimStart s with
  | nil =>
      have hAll : (s ++ trail).all isBlank = true := by
        rw [List.all_append, h, List.all_eq_true.mpr (List.dropWhile_eq_nil_iff.mp hStart)]
        rfl
      rw [trim, trim, hStart, show trimStart (s ++ trail) = [] from
        List.dropWhile_eq_nil_iff.mpr (List.all_eq_true.mp hAll)]
  | cons c rest =>
      have hEq : trimStart (s ++ trail) = trimStart s ++ trail := by
        rw [trimStart] at hStart
        rw [trimStart, List.dropWhile_append, trimStart, hStart]
        rfl
      rw [trim, hEq, trimEnd_append_blanks h, trim]

/-- A text is its core with blanks around it. -/
theorem exists_trim (s : Text) :
    ∃ lead trail, lead.all isBlank = true ∧ trail.all isBlank = true ∧
      s = lead ++ (trim s ++ trail) := by
  obtain ⟨lead, hLead, hStart⟩ := exists_trimStart s
  obtain ⟨trail, hTrail, hEnd⟩ := exists_trimEnd (trimStart s)
  exact ⟨lead, trail, hLead, hTrail, by rw [trim, ← hEnd, ← hStart]⟩

/-- Blanks at the end of a text stay there when something is put in front, unless the text has
nothing else. -/
theorem trimEnd_append (h : t.all isBlank = false) (s : Text) :
    trimEnd (s ++ t) = s ++ trimEnd t := by
  have hLeft : (t.reverse.dropWhile isBlank).isEmpty = false := by
    rw [List.isEmpty_eq_false_iff]
    intro hNil
    have hAll := List.dropWhile_eq_nil_iff.mp hNil
    rw [List.all_eq_true.mpr fun c hMem => hAll c (List.mem_reverse.mpr hMem)] at h
    cases h
  rw [trimEnd, List.reverse_append, List.dropWhile_append, hLeft, trimEnd]
  simp

/-- Trimming the end twice is trimming it once. -/
theorem trim_trimEnd (s : Text) : trim (trimEnd s) = trim s := by
  obtain ⟨trail, hTrail, hEq⟩ := exists_trimEnd s
  rw [← trim_append_blanks hTrail (trimEnd s), ← hEq]

theorem trim_subset (s : Text) : trim s ⊆ s := by
  obtain ⟨lead, trail, -, -, hEq⟩ := exists_trim s
  intro c hMem
  rw [hEq]
  simp [hMem]

/-- Trimming keeps everything that is not blank. -/
theorem mem_trim (h : c ∈ s) (hc : isBlank c = false) : c ∈ trim s := by
  obtain ⟨lead, trail, hLead, hTrail, hEq⟩ := exists_trim s
  rw [hEq, List.mem_append, List.mem_append] at h
  rcases h with hMem | hMem | hMem
  · exact absurd hMem (not_mem_of_all hLead hc)
  · exact hMem
  · exact absurd hMem (not_mem_of_all hTrail hc)

/-- A word ends where something else begins. -/
theorem splitWord_append_of_stop (hWord : word.all isWordChar = true)
    (hStop : ∀ c, rest.head? = some c → isWordChar c = false) :
    splitWord (word ++ rest) = (word, rest) := by
  have hRest : rest.takeWhile isWordChar = [] ∧ rest.dropWhile isWordChar = rest := by
    cases rest with
    | nil => exact ⟨rfl, rfl⟩
    | cons c rest =>
        have hc := hStop c rfl
        simp [hc]
  have hAll := List.all_eq_true.mp hWord
  rw [splitWord, List.takeWhile_append_of_pos hAll, List.dropWhile_append_of_pos hAll, hRest.1,
    hRest.2, List.append_nil]

/-- A word stays where it is when blanks are dropped. -/
theorem trimStart_word_append (hWord : word.all isWordChar = true)
    (hNil : word = [] → trimStart rest = rest) : trimStart (word ++ rest) = word ++ rest := by
  cases word with
  | nil => exact hNil rfl
  | cons first others =>
      apply trimStart_cons
      cases hBlank : isBlank first with
      | false => rfl
      | true => simp [isWordChar_of_isBlank hBlank] at hWord

/-- A word has no blanks to lose. -/
theorem trim_word (h : word.all isWordChar = true) : trim word = word := by
  have hKept : ∀ {s : Text}, s.all isWordChar = true → trimStart s = s := by
    intro s hs
    have hSame : trimStart (s ++ []) = s ++ [] := trimStart_word_append hs fun _ => rfl
    rwa [List.append_nil] at hSame
  have hReverse : word.reverse.all isWordChar = true := by simpa using h
  rw [trim, hKept h, trimEnd]
  exact (congrArg List.reverse (hKept hReverse)).trans (List.reverse_reverse word)

/-- A comma divides a list into two lists. -/
theorem splitList_append_comma (s t : Text) :
    splitList (s ++ ',' :: t) = splitList s ++ splitList t := by
  rw [splitList, List.splitOn_append_cons_self, List.map_append, splitList, splitList]

/-- Without a comma there is one item. -/
theorem splitList_of_not_mem (h : ',' ∉ s) : splitList s = [trim s] := by
  rw [splitList, List.splitOn_eq_singleton h, List.map_singleton]

/-- Blanks around a list belong to none of its items. The induction goes from comma to comma; only
the first item has the leading blanks next to it. -/
theorem splitList_padded (hLead : lead.all isBlank = true) (hTrail : trail.all isBlank = true)
    (s : Text) : splitList (lead ++ (s ++ trail)) = splitList s := by
  have hComma : ∀ {blanks : Text}, blanks.all isBlank = true → ',' ∉ blanks :=
    fun h => not_mem_of_all h (by decide)
  induction hLength : s.length using Nat.strongRecOn generalizing s lead with
  | ind length ih =>
      by_cases hMem : ',' ∈ s
      · obtain ⟨item, others, rfl, hItem⟩ := List.eq_append_cons_of_mem hMem
        have hShorter : others.length < length := by
          rw [← hLength, List.length_append, List.length_cons]
          omega
        have hOthers : splitList ([] ++ (others ++ trail)) = splitList others :=
          ih _ hShorter rfl others rfl
        have hFirst : splitList (lead ++ item) = splitList item := by
          rw [splitList_of_not_mem (by simp [hComma hLead, hItem]), splitList_of_not_mem hItem,
            trim_blanks_append hLead]
        rw [List.append_assoc, List.cons_append, ← List.append_assoc, splitList_append_comma,
          splitList_append_comma, hFirst]
        exact congrArg _ hOthers
      · rw [splitList_of_not_mem (by simp [hComma hLead, hComma hTrail, hMem]),
          splitList_of_not_mem hMem, trim_blanks_append hLead, trim_append_blanks hTrail]

/-- Blanks around a list are blanks around its items. -/
theorem splitList_trim (s : Text) : splitList (trim s) = splitList s := by
  obtain ⟨lead, trail, hLead, hTrail, hEq⟩ := exists_trim s
  exact (splitList_padded hLead hTrail (trim s)).symm.trans (congrArg splitList hEq.symm)

theorem subset_intercalate (separator : Text) {part : Text} {parts : List Text} (h : part ∈ parts) :
    part ⊆ separator.intercalate parts := by
  induction parts with
  | nil => simp at h
  | cons first rest ih =>
      cases rest with
      | nil =>
          rw [List.mem_singleton] at h
          simp [h]
      | cons second rest =>
          intro c hMem
          rw [List.intercalate_cons_cons]
          rcases List.mem_cons.mp h with rfl | hRest
          · simp [hMem]
          · simp [ih hRest hMem]

/-- Items hold nothing that the list does not. -/
theorem subset_of_mem_splitList {s part : Text} (h : part ∈ splitList s) : part ⊆ s := by
  obtain ⟨piece, hPiece, rfl⟩ := List.mem_map.mp h
  have hInside : piece ⊆ s := by
    simpa [List.intercalate_splitOn] using subset_intercalate [','] hPiece
  exact List.Subset.trans (trim_subset piece) hInside

/-- All that is neither a comma nor a blank stands in some item. -/
theorem exists_mem_splitList (h : c ∈ s) (hComma : c ≠ ',') (hBlank : isBlank c = false) :
    ∃ item ∈ splitList s, c ∈ item := by
  induction hLength : s.length using Nat.strongRecOn generalizing s with
  | ind length ih =>
      by_cases hMem : ',' ∈ s
      · obtain ⟨first, others, rfl, hFirst⟩ := List.eq_append_cons_of_mem hMem
        rw [splitList_append_comma, splitList_of_not_mem hFirst]
        rw [List.mem_append, List.mem_cons] at h
        rcases h with hItem | hEq | hOthers
        · exact ⟨trim first, by simp, mem_trim hItem hBlank⟩
        · exact absurd hEq hComma
        · have hShorter : others.length < length := by
            rw [← hLength, List.length_append, List.length_cons]
            omega
          obtain ⟨item, hItem, hc⟩ := ih _ hShorter hOthers rfl
          exact ⟨item, by simp [hItem], hc⟩
      · rw [splitList_of_not_mem hMem]
        exact ⟨trim s, by simp, mem_trim h hBlank⟩

/-- The cut is at the first mark. -/
theorem cutFirst_append (h : mark ∉ s) (t : Text) :
    cutFirst mark (s ++ mark :: t) = some (s, t) := by
  induction s with
  | nil => simp [cutFirst]
  | cons c s ih =>
      rw [List.mem_cons, not_or] at h
      rw [List.cons_append, cutFirst, if_neg (Ne.symm h.1), ih h.2]
      rfl

theorem cutFirst_of_not_mem (h : mark ∉ s) : cutFirst mark s = none := by
  induction s with
  | nil => rfl
  | cons c s ih =>
      rw [List.mem_cons, not_or] at h
      rw [cutFirst, if_neg (Ne.symm h.1), ih h.2]
      rfl

/-- There is a last mark exactly if there is a mark. -/
theorem beforeLast_eq_none_iff : beforeLast mark s = none ↔ mark ∉ s := by
  induction s with
  | nil => simp [beforeLast]
  | cons c s ih =>
      rw [beforeLast, List.mem_cons, not_or, ← ih]
      cases beforeLast mark s with
      | some before => simp
      | none => simp [eq_comm]

/-- What follows a last mark has no say, and of what precedes it nothing is lost. -/
theorem beforeLast_append (h : mark ∉ t) (s : Text) :
    beforeLast mark (s ++ mark :: t) = some s := by
  induction s with
  | nil => simp [beforeLast, beforeLast_eq_none_iff.mpr h]
  | cons c s ih => rw [List.cons_append, beforeLast, ih]

/-- What follows the last mark does not matter. -/
theorem beforeLast_append_of_not_mem (h : mark ∉ t) (s : Text) :
    beforeLast mark (s ++ t) = beforeLast mark s := by
  induction s with
  | nil => exact beforeLast_eq_none_iff.mpr h
  | cons c s ih => rw [List.cons_append, beforeLast, ih, beforeLast]

/-- A mark that occurs has a last occurrence. -/
theorem exists_last_of_mem (h : mark ∈ s) : ∃ before after, s = before ++ mark :: after ∧
    mark ∉ after := by
  obtain ⟨after, before, hEq, hAfter⟩ := List.eq_append_cons_of_mem (List.mem_reverse.mpr h)
  refine ⟨before.reverse, after.reverse, ?_, by simpa using hAfter⟩
  rw [← List.reverse_inj, hEq]
  simp

/-- What stands before the last mark, said without searching. -/
theorem beforeLast_eq_some_iff {before : Text} :
    beforeLast mark s = some before ↔ ∃ after, s = before ++ mark :: after ∧ mark ∉ after := by
  constructor
  · intro h
    have hMem : mark ∈ s := by
      by_contra hNot
      rw [beforeLast_eq_none_iff.mpr hNot] at h
      cases h
    obtain ⟨front, after, rfl, hAfter⟩ := exists_last_of_mem hMem
    rw [beforeLast_append hAfter] at h
    cases h
    exact ⟨after, rfl, hAfter⟩
  · rintro ⟨after, rfl, hAfter⟩
    exact beforeLast_append hAfter before

end

section Lists

variable {core list : Text} {items : List Text}

/-- A text without the blanks at its ends. -/
structure Trims (s core : Text) : Prop where
  padded : ∃ lead trail, s = lead ++ (core ++ trail) ∧ lead.all isBlank = true ∧
    trail.all isBlank = true
  starts : ∀ c ∈ core.head?, isBlank c = false
  ends : ∀ c ∈ core.getLast?, isBlank c = false

theorem trimStart_eq_self (h : ∀ c ∈ s.head?, isBlank c = false) : trimStart s = s := by
  cases s with
  | nil => rfl
  | cons c s => exact trimStart_cons (h c rfl) s

/-- After trimming, the first character is not blank. -/
theorem isBlank_of_mem_head?_trimStart (s : Text) :
    ∀ c ∈ (trimStart s).head?, isBlank c = false := by
  intro c hHead
  have hNot := List.head?_dropWhile_not isBlank s
  rw [← trimStart, Option.mem_def.mp hHead] at hNot
  simpa using hNot

/-- Trimming is the one way to take blanks off both ends. -/
theorem trims_iff : Trims s core ↔ trim s = core := by
  constructor
  · rintro ⟨⟨lead, trail, rfl, hLead, hTrail⟩, hStarts, hEnds⟩
    rw [trim_blanks_append hLead, trim_append_blanks hTrail, trim, trimStart_eq_self hStarts]
    rw [← List.head?_reverse] at hEnds
    exact (congrArg List.reverse (trimStart_eq_self hEnds)).trans (List.reverse_reverse core)
  · rintro rfl
    obtain ⟨lead, trail, hLead, hTrail, hEq⟩ := exists_trim s
    refine ⟨⟨lead, trail, hEq, hLead, hTrail⟩, ?_, ?_⟩
    · intro c hHead
      obtain ⟨blanks, -, hStart⟩ := exists_trimEnd (trimStart s)
      apply isBlank_of_mem_head?_trimStart s
      rw [hStart, List.head?_append]
      simpa [trim] using Or.inl hHead
    · rw [trim, trimEnd, List.getLast?_reverse]
      exact isBlank_of_mem_head?_trimStart _

/-- The items of a list with commas between them, each without the blanks at its ends. -/
inductive Listed : Text → List Text → Prop where
  | last {part item : Text} (hPart : ',' ∉ part) (hItem : Trims part item) : Listed part [item]
  | more {part item list : Text} {items : List Text} (hPart : ',' ∉ part) (hItem : Trims part item)
      (others : Listed list items) : Listed (part ++ ',' :: list) (item :: items)

/-- Splitting lists the items. -/
theorem listed_splitList (list : Text) : Listed list (splitList list) := by
  induction hLength : list.length using Nat.strongRecOn generalizing list with
  | ind length ih =>
      by_cases hMem : ',' ∈ list
      · obtain ⟨part, others, rfl, hPart⟩ := List.eq_append_cons_of_mem hMem
        have hShorter : others.length < length := by
          rw [← hLength, List.length_append, List.length_cons]
          omega
        rw [splitList_append_comma, splitList_of_not_mem hPart]
        exact .more hPart (trims_iff.mpr rfl) (ih _ hShorter others rfl)
      · rw [splitList_of_not_mem hMem]
        exact .last hMem (trims_iff.mpr rfl)

/-- Items between commas are what splitting gives, and nothing else is. -/
theorem listed_iff : Listed list items ↔ splitList list = items := by
  constructor
  · intro h
    induction h with
    | last hPart hItem => rw [splitList_of_not_mem hPart, trims_iff.mp hItem]
    | more hPart hItem others ih =>
        rw [splitList_append_comma, splitList_of_not_mem hPart, trims_iff.mp hItem, ih]
        rfl
  · rintro rfl
    exact listed_splitList list

end Lists

end TwoPass.Text
