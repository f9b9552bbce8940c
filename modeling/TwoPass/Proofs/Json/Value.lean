import Mathlib.Data.List.DropRight
import TwoPass.Json.Reading
import TwoPass.Proofs.Outcome

/-! JSON texts and the values that they spell. Values are read as strictly as they are checked when
they are skipped, and every text with a value passes that check. The converse fails: a skipped
string may have half of a surrogate pair, and a skipped number may be too large. -/
namespace TwoPass.Json

/-- A JSON value. Members of an object keep their order, and a key may come more than once. -/
inductive Value where
  | null
  | boolean (b : Bool)
  | number (n : Number)
  | string (text : Text)
  | list (elements : List Value)
  | object (members : List (Text × Value))

mutual

/-- The value at the start of a text, and what follows it. A round is used up for each value,
element and member, as in skipping. -/
def decodeValue : Nat → Text → Except Failure (Value × Text)
  | 0, s => stop .endInValue s
  | rounds + 1, s =>
    match skipSpace s with
    | [] => stop .endInValue []
    | 'n' :: rest => (keyword "ull".toList rest).map fun rest => (.null, rest)
    | 't' :: rest => (keyword "rue".toList rest).map fun rest => (.boolean true, rest)
    | 'f' :: rest => (keyword "alse".toList rest).map fun rest => (.boolean false, rest)
    | '"' :: rest => (string rest).map fun (text, rest) => (.string text, rest)
    | '[' :: rest =>
      match skipSpace rest with
      | [] => stop .endInList []
      | ']' :: rest => .ok (.list [], rest)
      | rest => (decodeElements rounds rest).map fun (elements, rest) => (.list elements, rest)
    | '\x7b' :: rest =>
      match skipSpace rest with
      | [] => stop .endInObject []
      | '\x7d' :: rest => .ok (.object [], rest)
      | rest => (decodeMembers rounds rest).map fun (members, rest) => (.object members, rest)
    | c :: rest =>
      if c = '-' ∨ c.isDigit then (number (c :: rest)).map fun (n, rest) => (.number n, rest)
      else stopAt .expectedValue (c :: rest)

/-- The elements of a list from one on, up to its closing bracket. -/
def decodeElements : Nat → Text → Except Failure (List Value × Text)
  | 0, s => stop .endInValue s
  | rounds + 1, s => do
    let (value, s) ← decodeValue rounds s
    match skipSpace s with
    | [] => stop .endInList []
    | ',' :: rest => (decodeElements rounds rest).map fun (others, rest) => (value :: others, rest)
    | ']' :: rest => .ok ([value], rest)
    | rest => stopAt .expectedListEnd rest

/-- The members of an object from one on, up to its closing brace. -/
def decodeMembers : Nat → Text → Except Failure (List (Text × Value) × Text)
  | 0, s => stop .endInValue s
  | rounds + 1, s =>
    match skipSpace s with
    | [] => stop .endInObject []
    | '"' :: rest => do
      let (key, s) ← string rest
      match skipSpace s with
      | [] => stop .endInObject []
      | ':' :: rest =>
        let (value, s) ← decodeValue rounds rest
        match skipSpace s with
        | [] => stop .endInObject []
        | ',' :: rest =>
          (decodeMembers rounds rest).map fun (others, rest) => ((key, value) :: others, rest)
        | '\x7d' :: rest => .ok ([(key, value)], rest)
        | rest => stopAt .expectedObjectEnd rest
      | rest => stopAt .expectedColon rest
    | rest => stopAt .keyNotString rest

end

-- Nearly every proof below opens one of the three, so their equations are derived here, once.
attribute [local simp] decodeValue decodeElements decodeMembers

/-- The value that a whole text spells. -/
def decode (source : Text) : Except Failure Value := do
  let (value, rest) ← decodeValue (2 * source.length + 2) source
  match skipSpace rest with
  | [] => return value
  | rest => stopAt .trailingText rest

/-! What is decoded can be skipped. -/

theorem badDigits_ne_ok {α : Type} (s : Text) (a : α) : badDigits s ≠ .ok a := by
  intro h
  unfold badDigits at h
  split at h <;> cases h

/-- The rest behind a string does not depend on whether its text is kept. -/
theorem skipString_of_string {s text rest : Text} (h : string s = .ok (text, rest)) :
    skipString s = .ok rest := by
  fun_induction string s generalizing text with
  | case2 =>
      cases h
      rw [skipString]
  | case3 | case5 | case8 | case14 => exact absurd h (badDigits_ne_ok _ _)
  | case6 a b c d _ hFirst _ _ _ _ _ _ _ _ hSecond _ ih =>
      obtain ⟨⟨inner, _⟩, hInner, hEq⟩ := map_eq_ok_iff.mp h
      cases hEq
      rw [skipString, hFirst]
      dsimp only
      rw [skipString, hSecond]
      exact ih hInner
  | case13 a b c d _ _ hDigits _ _ ih =>
      obtain ⟨⟨inner, _⟩, hInner, hEq⟩ := map_eq_ok_iff.mp h
      cases hEq
      rw [skipString, hDigits]
      exact ih hInner
  | case16 c _ hLong hShort _ hEscape ih =>
      obtain ⟨⟨inner, _⟩, hInner, hEq⟩ := map_eq_ok_iff.mp h
      cases hEq
      rw [skipString, hEscape]
      · exact ih hInner
      · exact hLong
      · exact hShort
  | case19 c rest hQuote _ _ _ hEscape hPlain ih =>
      obtain ⟨⟨inner, _⟩, hInner, hEq⟩ := map_eq_ok_iff.mp h
      cases hEq
      rw [skipString, if_neg hPlain]
      · exact ih hInner
      all_goals assumption
  | _ => cases h

section

variable {first second : Problem} {s rest : Text}

/-! The problem to report at the end of a text has no say in a number that is read. -/

/-- The failure to report at the end of the text does not matter where reading succeeds. -/
theorem digits_of_digits {found : Text} (h : digits first s = .ok (found, rest)) :
    digits second s = .ok (found, rest) := by
  unfold digits at h ⊢
  split at h
  · split at h <;> cases h
  · exact h

theorem wholePart_of_wholePart {found : Text} (h : wholePart first s = .ok (found, rest)) :
    wholePart second s = .ok (found, rest) := by
  unfold wholePart at h ⊢
  split at h
  · exact h
  · exact digits_of_digits h

theorem fractionPart_of_fractionPart {found : Option Text}
    (h : fractionPart first s = .ok (found, rest)) :
    fractionPart second s = .ok (found, rest) := by
  unfold fractionPart at h ⊢
  split at h
  · obtain ⟨⟨read, _⟩, hRead, hEq⟩ := map_eq_ok_iff.mp h
    cases hEq
    exact map_eq_ok_iff.mpr ⟨(read, rest), digits_of_digits hRead, rfl⟩
  · exact h

theorem exponentPart_of_exponentPart {found : Option (Bool × Text)}
    (h : exponentPart first s = .ok (found, rest)) :
    exponentPart second s = .ok (found, rest) := by
  have hFound : ∀ {negative : Bool} {s : Text},
      ((digits first s).map fun (found, rest) => (some (negative, found), rest)) =
        .ok (found, rest) →
      ((digits second s).map fun (found, rest) => (some (negative, found), rest)) =
        .ok (found, rest) := by
    intro negative s h
    obtain ⟨⟨read, _⟩, hRead, hEq⟩ := map_eq_ok_iff.mp h
    cases hEq
    exact map_eq_ok_iff.mpr ⟨(read, rest), digits_of_digits hRead, rfl⟩
  unfold exponentPart at h ⊢
  dsimp only at h ⊢
  split at h
  · split at h
    · next hMark =>
        rw [if_pos hMark]
        split at h <;> exact hFound h
    · next hMark =>
        rw [if_neg hMark]
        exact h
  · exact h

/-- The same for whole numerals, part by part. -/
theorem numeral_of_numeral {found : Numeral} (h : numeral first s = .ok (found, rest)) :
    numeral second s = .ok (found, rest) := by
  unfold numeral at h ⊢
  obtain ⟨⟨whole, s⟩, hWhole, h⟩ := bind_eq_ok_iff.mp h
  obtain ⟨⟨fraction, s⟩, hFraction, h⟩ := bind_eq_ok_iff.mp h
  obtain ⟨⟨exponent, s⟩, hExponent, h⟩ := bind_eq_ok_iff.mp h
  refine bind_eq_ok_iff.mpr ⟨_, wholePart_of_wholePart hWhole, ?_⟩
  refine bind_eq_ok_iff.mpr ⟨_, fractionPart_of_fractionPart hFraction, ?_⟩
  exact bind_eq_ok_iff.mpr ⟨_, exponentPart_of_exponentPart hExponent, h⟩

/-- Skipping a number needs less than reading it. -/
theorem skipNumber_of_number {n : Number} (h : number s = .ok (n, rest)) :
    skipNumber s = .ok rest := by
  unfold number at h
  obtain ⟨⟨found, s⟩, hNumeral, h⟩ := bind_eq_ok_iff.mp h
  obtain ⟨value, -, h⟩ := bind_eq_ok_iff.mp h
  cases h
  exact map_eq_ok_iff.mpr ⟨_, numeral_of_numeral hNumeral, rfl⟩

end

/-- A part that starts as a number does is one. -/
theorem skipPart_number {rounds : Nat} {s rest : Text} {c : Char}
    (hStart : skipSpace s = c :: rest) (hNumber : c = '-' ∨ c.isDigit = true) :
    skipPart (rounds + 1) .value s = skipNumber (c :: rest) := by
  rw [skipPart, hStart]
  split
  all_goals
    next hCons =>
      cases hCons <;> first
        | exact absurd hNumber (by decide)
        | exact if_pos hNumber

/-- What some rounds of decoding read, as many rounds of skipping get past. -/
structure Skips (rounds : Nat) : Prop where
  value : ∀ {s rest : Text} {value : Value}, decodeValue rounds s = .ok (value, rest) →
    skipPart rounds .value s = .ok rest
  elements : ∀ {s rest : Text} {values : List Value},
    decodeElements rounds s = .ok (values, rest) → skipPart rounds .elements s = .ok rest
  members : ∀ {s rest : Text} {members : List (Text × Value)},
    decodeMembers rounds s = .ok (members, rest) → skipPart rounds .members s = .ok rest

namespace Skips

variable {rounds : Nat} {s rest : Text}

/-- A keyword is read for its value, and skipped as it stands. -/
theorem keyword {word after : Text} {value : Value} {found : Value × Text}
    (hSkip : skipPart (rounds + 1) .value s = Json.keyword word after)
    (h : (Json.keyword word after).map (fun rest => (value, rest)) = .ok found) :
    skipPart (rounds + 1) .value s = .ok found.2 := by
  obtain ⟨rest, hKeyword, rfl⟩ := map_eq_ok_iff.mp h
  rw [hSkip, hKeyword]

/-- A value that is read with one more round is skipped with it, each form as it is read. -/
theorem value_succ (ih : Skips rounds) {value : Value}
    (h : decodeValue (rounds + 1) s = .ok (value, rest)) :
    skipPart (rounds + 1) .value s = .ok rest := by
  rw [decodeValue] at h
  split at h
  · cases h
  · next hStart => exact keyword (by rw [skipPart, hStart]; rfl) h
  · next hStart => exact keyword (by rw [skipPart, hStart]; rfl) h
  · next hStart => exact keyword (by rw [skipPart, hStart]; rfl) h
  · next hStart =>
      obtain ⟨⟨text, _⟩, hString, hEq⟩ := map_eq_ok_iff.mp h
      cases hEq
      rw [skipPart, hStart]
      exact skipString_of_string hString
  · next rest hStart =>
      rw [skipPart, hStart]
      change (match skipSpace rest with
        | [] => stop .endInList []
        | ']' :: rest => .ok rest
        | rest => skipPart rounds .elements rest) = _
      generalize skipSpace rest = t at h ⊢
      split at h
      · cases h
      · cases h
        rfl
      · obtain ⟨⟨values, _⟩, hValues, hEq⟩ := map_eq_ok_iff.mp h
        cases hEq
        exact ih.elements hValues
  · next rest hStart =>
      rw [skipPart, hStart]
      change (match skipSpace rest with
        | [] => stop .endInObject []
        | '\x7d' :: rest => .ok rest
        | rest => skipPart rounds .members rest) = _
      generalize skipSpace rest = t at h ⊢
      split at h
      · cases h
      · cases h
        rfl
      · obtain ⟨⟨members, _⟩, hMembers, hEq⟩ := map_eq_ok_iff.mp h
        cases hEq
        exact ih.members hMembers
  · next hStart =>
      split at h
      · next hNumber =>
          obtain ⟨⟨n, _⟩, hRead, hEq⟩ := map_eq_ok_iff.mp h
          cases hEq
          rw [skipPart_number hStart hNumber]
          exact skipNumber_of_number hRead
      · cases h

/-- Elements are skipped one after another. -/
theorem elements_succ (ih : Skips rounds) {values : List Value}
    (h : decodeElements (rounds + 1) s = .ok (values, rest)) :
    skipPart (rounds + 1) .elements s = .ok rest := by
  rw [decodeElements] at h
  obtain ⟨⟨value, s⟩, hValue, h⟩ := bind_eq_ok_iff.mp h
  rw [skipPart]
  refine bind_eq_ok_iff.mpr ⟨s, ih.value hValue, ?_⟩
  dsimp only at h
  generalize skipSpace s = t at h ⊢
  split at h
  · cases h
  · obtain ⟨⟨others, _⟩, hOthers, hEq⟩ := map_eq_ok_iff.mp h
    cases hEq
    exact ih.elements hOthers
  · cases h
    rfl
  · cases h

/-- Members are skipped with their keys. -/
theorem members_succ (ih : Skips rounds) {members : List (Text × Value)}
    (h : decodeMembers (rounds + 1) s = .ok (members, rest)) :
    skipPart (rounds + 1) .members s = .ok rest := by
  rw [decodeMembers] at h
  rw [skipPart]
  generalize skipSpace s = t at h ⊢
  split at h
  · cases h
  · obtain ⟨⟨key, s⟩, hKey, h⟩ := bind_eq_ok_iff.mp h
    refine bind_eq_ok_iff.mpr ⟨s, skipString_of_string hKey, ?_⟩
    dsimp only at h
    generalize skipSpace s = t at h ⊢
    split at h
    · cases h
    · obtain ⟨⟨value, s⟩, hValue, h⟩ := bind_eq_ok_iff.mp h
      refine bind_eq_ok_iff.mpr ⟨s, ih.value hValue, ?_⟩
      dsimp only at h
      generalize skipSpace s = t at h ⊢
      split at h
      · cases h
      · obtain ⟨⟨others, _⟩, hOthers, hEq⟩ := map_eq_ok_iff.mp h
        cases hEq
        exact ih.members hOthers
      · cases h
        rfl
      · cases h
    · cases h
  · cases h

end Skips

/-- Every text with a value can be skipped. The induction is on the rounds, for values, elements and
members at once. -/
theorem skips (rounds : Nat) : Skips rounds := by
  induction rounds with
  | zero =>
      constructor
      · intro s rest value h
        rw [decodeValue] at h
        cases h
      · intro s rest values h
        rw [decodeElements] at h
        cases h
      · intro s rest members h
        rw [decodeMembers] at h
        cases h
  | succ rounds ih => exact ⟨ih.value_succ, ih.elements_succ, ih.members_succ⟩

/-! Reading one part after the other. -/

/-- Space in front of a value does not matter. -/
theorem decodeValue_congr {s t : Text} (h : skipSpace s = skipSpace t) (rounds : Nat) :
    decodeValue (rounds + 1) s = decodeValue (rounds + 1) t := by
  rw [decodeValue, decodeValue, h]

/-- Space in front of a list of elements does not matter, because its first value skips it. -/
theorem decodeElements_congr {s t : Text} (h : skipSpace s = skipSpace t) (rounds : Nat) :
    decodeElements (rounds + 2) s = decodeElements (rounds + 2) t := by
  rw [decodeElements, decodeElements, decodeValue_congr h]

section

variable {rounds : Nat} {s afterValue rest : Text} {value : Value}

/-- A quote opens a string. -/
theorem decodeValue_string {inside text : Text} (hQuote : skipSpace s = '"' :: inside)
    (hText : string inside = .ok (text, rest)) :
    decodeValue (rounds + 1) s = .ok (.string text, rest) := by
  simp only [decodeValue, hQuote, hText]
  rfl

/-- A bracket that is not closed at once opens a list with elements. -/
theorem decodeValue_list {c : Char} {inside : Text} (hOpen : skipSpace s = '[' :: inside)
    (hFirst : skipSpace inside = c :: rest) (hClosed : c ≠ ']') :
    decodeValue (rounds + 3) s =
      (decodeElements (rounds + 2) inside).map fun (elements, rest) => (.list elements, rest) := by
  have hSpace : skipSpace (c :: rest) = skipSpace inside := by
    rw [← hFirst]
    exact List.dropWhile_idempotent ..
  rw [← decodeElements_congr hSpace]
  simp only [decodeValue, hOpen, hFirst]
  split
  · next hNil => cases hNil
  · next hCons => exact absurd (List.head_eq_of_cons_eq hCons) hClosed
  · rfl

/-- A brace in front of a key opens an object with members. -/
theorem decodeValue_object {inside : Text} (hOpen : skipSpace s = '\x7b' :: inside)
    (hQuote : skipSpace inside = '"' :: rest) :
    decodeValue (rounds + 1) s =
      (decodeMembers rounds ('"' :: rest)).map fun (members, rest) => (.object members, rest) := by
  simp only [decodeValue, hOpen, hQuote]
  rfl

/-- A digit or a minus sign starts a number. -/
theorem decodeValue_number {c : Char} (hStart : skipSpace s = c :: rest)
    (hNumber : c = '-' ∨ c.isDigit = true) :
    decodeValue (rounds + 1) s = (number (c :: rest)).map fun (n, rest) => (.number n, rest) := by
  simp only [decodeValue, hStart]
  split
  -- Nothing else starts as a number does.
  all_goals
    next hCons =>
      cases hCons <;> first
        | exact absurd hNumber (by decide)
        | exact if_pos hNumber

/-- Behind a comma there are other elements. -/
theorem decodeElements_next (hValue : decodeValue rounds s = .ok (value, afterValue))
    (hComma : skipSpace afterValue = ',' :: rest) :
    decodeElements (rounds + 1) s =
      (decodeElements rounds rest).map fun (others, rest) => (value :: others, rest) := by
  simp only [decodeElements, hValue, ok_bind, hComma]

theorem decodeElements_last (hValue : decodeValue rounds s = .ok (value, afterValue))
    (hEnd : skipSpace afterValue = ']' :: rest) :
    decodeElements (rounds + 1) s = .ok ([value], rest) := by
  simp only [decodeElements, hValue, ok_bind, hEnd]

variable {keyText key afterKey valueText : Text}

/-- Behind a comma there are other members. -/
theorem decodeMembers_next (hQuote : skipSpace s = '"' :: keyText)
    (hKey : string keyText = .ok (key, afterKey)) (hColon : skipSpace afterKey = ':' :: valueText)
    (hValue : decodeValue rounds valueText = .ok (value, afterValue))
    (hComma : skipSpace afterValue = ',' :: rest) :
    decodeMembers (rounds + 1) s =
      (decodeMembers rounds rest).map fun (others, rest) => ((key, value) :: others, rest) := by
  simp only [decodeMembers, hQuote, hKey, ok_bind, hColon, hValue, hComma]

theorem decodeMembers_last (hQuote : skipSpace s = '"' :: keyText)
    (hKey : string keyText = .ok (key, afterKey)) (hColon : skipSpace afterKey = ':' :: valueText)
    (hValue : decodeValue rounds valueText = .ok (value, afterValue))
    (hEnd : skipSpace afterValue = '\x7d' :: rest) :
    decodeMembers (rounds + 1) s = .ok ([(key, value)], rest) := by
  simp only [decodeMembers, hQuote, hKey, ok_bind, hColon, hValue, hEnd]

end

end TwoPass.Json
