import TwoPass.Proofs.Json.Value
import TwoPass.Proofs.Text.Hex

/-! The tokens of a JSON text: the space between them, strings and numbers. How they may be spelled
is said without the reader, and the reader gets past every spelling to exactly what follows it. A
number is found again if nothing follows that could belong to it. -/
namespace TwoPass.Json

/-- Space between tokens, of any length. -/
def Blank (gap : Text) : Prop := gap.all isSpace = true

instance (gap : Text) : Decidable (Blank gap) :=
  inferInstanceAs (Decidable (gap.all isSpace = true))

section

variable {gap rest : Text} {c : Char}

/-- How wide a gap is does not matter. -/
theorem skipSpace_append (hGap : Blank gap) (rest : Text) :
    skipSpace (gap ++ rest) = skipSpace rest :=
  List.dropWhile_append_of_pos (List.all_eq_true.mp hGap)

/-- Skipping stops at a token. -/
theorem skipSpace_token (hGap : Blank gap) (hToken : isSpace c = false) (rest : Text) :
    skipSpace (gap ++ c :: rest) = c :: rest := by
  rw [skipSpace_append hGap]
  exact List.dropWhile_cons_of_neg (by simp [hToken])

theorem skipSpace_blank (hGap : Blank gap) : skipSpace gap = [] :=
  List.dropWhile_eq_nil_iff.mpr (List.all_eq_true.mp hGap)

theorem blank_nil : Blank [] := rfl

/-- No number starts with a space. -/
theorem isSpace_of_isDigit (h : c = '-' ∨ c.isDigit = true) : isSpace c = false := by
  by_contra hBlank
  simp only [isSpace, Bool.not_eq_false, Bool.or_eq_true, beq_iff_eq] at hBlank
  rcases hBlank with ((rfl | rfl) | rfl) | rfl <;> exact absurd h (by decide)

end

/-! Strings. -/

/-- The character is the hexadecimal digit of that value, in either case. -/
def IsHexDigit (c : Char) (n : Nat) : Prop :=
  Text.hexDigits[n]? = some c ∨ "0123456789ABCDEF".toList[n]? = some c

/-- The four hexadecimal digits of a number of 16 bits. -/
def IsCodeUnit (n : Nat) : Text → Prop
  | [a, b, c, d] =>
    IsHexDigit a (n / 4096) ∧ IsHexDigit b (n / 256 % 16) ∧ IsHexDigit c (n / 16 % 16) ∧
      IsHexDigit d (n % 16)
  | _ => False

/-- A spelling of the text between quotes. Every character may be escaped by its number, a character
above 16 bits by the two halves of its surrogate pair; some have a short escape. Quotes, backslashes
and control characters must be escaped. -/
inductive Spells : Text → Text → Prop where
  | nil : Spells [] []
  | plain {c : Char} {text s : Text} (hQuote : c ≠ '"') (hBackslash : c ≠ '\\')
      (hControl : 0x20 ≤ c.toNat) (hText : Spells text s) : Spells (c :: text) (c :: s)
  | short {c e : Char} {text s : Text} (hEscape : shortEscape? e = some c) (hText : Spells text s) :
      Spells (c :: text) ('\\' :: e :: s)
  | single {c : Char} {digits text s : Text} (hDigits : IsCodeUnit c.toNat digits)
      (hText : Spells text s) : Spells (c :: text) ('\\' :: 'u' :: (digits ++ s))
  | pair {c : Char} {high low text s : Text} (hLarge : 0x10000 ≤ c.toNat)
      (hHigh : IsCodeUnit (0xd800 + (c.toNat - 0x10000) / 0x400) high)
      (hLow : IsCodeUnit (0xdc00 + (c.toNat - 0x10000) % 0x400) low) (hText : Spells text s) :
      Spells (c :: text) ('\\' :: 'u' :: (high ++ '\\' :: 'u' :: (low ++ s)))

/-- What may stand between quotes in a value. Here a number of 16 bits may also be half of a
surrogate pair without the other half, so that it spells no text. -/
inductive Inside : Text → Prop where
  | nil : Inside []
  | plain {c : Char} {s : Text} (hQuote : c ≠ '"') (hBackslash : c ≠ '\\')
      (hControl : 0x20 ≤ c.toNat) (hText : Inside s) : Inside (c :: s)
  | short {c e : Char} {s : Text} (hEscape : shortEscape? e = some c) (hText : Inside s) :
      Inside ('\\' :: e :: s)
  | unit {n : Nat} {digits s : Text} (hDigits : IsCodeUnit n digits) (hText : Inside s) :
      Inside ('\\' :: 'u' :: (digits ++ s))

/-- Characters that need no escape may stand for themselves. -/
theorem spells_plain {text : Text}
    (h : text.all (fun c => c ≠ '"' ∧ c ≠ '\\' ∧ 0x20 ≤ c.toNat) = true) : Spells text text := by
  induction text with
  | nil => exact .nil
  | cons c text ih =>
      rw [List.all_cons, Bool.and_eq_true, decide_eq_true_iff] at h
      obtain ⟨⟨hQuote, hBackslash, hControl⟩, hText⟩ := h
      exact .plain hQuote hBackslash hControl (ih hText)

/-- Digits count what the grammar says, in either case. -/
theorem hexValue?_of_isHexDigit {c : Char} {n : Nat} (h : IsHexDigit c n) :
    hexValue? c = some n := by
  have hAll : ∀ n < 16, Text.hexDigits[n]?.bind hexValue? = some n ∧
      "0123456789ABCDEF".toList[n]?.bind hexValue? = some n := by decide
  rcases h with h | h
  · obtain ⟨hLower, -⟩ := hAll n (List.getElem?_eq_some_iff.mp h).1
    rwa [h] at hLower
  · obtain ⟨-, hUpper⟩ := hAll n (List.getElem?_eq_some_iff.mp h).1
    rwa [h] at hUpper

/-- A code unit is four digits. -/
theorem IsCodeUnit.exists_hexValue4? {n : Nat} {digits : Text} (h : IsCodeUnit n digits) :
    ∃ a b c d, digits = [a, b, c, d] ∧ hexValue4? a b c d = some n := by
  unfold IsCodeUnit at h
  split at h
  · next a b c d =>
      obtain ⟨hA, hB, hC, hD⟩ := h
      refine ⟨a, b, c, d, rfl, ?_⟩
      simp only [hexValue4?, hexValue?_of_isHexDigit hA, hexValue?_of_isHexDigit hB,
        hexValue?_of_isHexDigit hC, hexValue?_of_isHexDigit hD, Option.bind_eq_bind,
        Option.bind_some, Option.pure_def, Option.some.injEq]
      omega
  · exact h.elim

/-- Plain characters stand for themselves. -/
theorem string_cons {c : Char} (hQuote : c ≠ '"') (hBackslash : c ≠ '\\')
    (hControl : 0x20 ≤ c.toNat) (rest : Text) :
    string (c :: rest) = (string rest).map fun (text, rest) => (c :: text, rest) := by
  rw [string, if_neg (Nat.not_lt.mpr hControl)]
  all_goals simp [hQuote, hBackslash]

/-- A short escape stands for its character. -/
theorem string_shortEscape {c e : Char} (h : shortEscape? e = some c) (rest : Text) :
    string ('\\' :: e :: rest) = (string rest).map fun (text, rest) => (c :: text, rest) := by
  have hLong : e ≠ 'u' := by
    rintro rfl
    cases h
  rw [string, h]
  all_goals simp [hLong]

/-- No character is half of a surrogate pair. -/
theorem not_surrogate (c : Char) :
    isLowSurrogate c.toNat = false ∧ isHighSurrogate c.toNat = false := by
  have hValid : c.toNat < 0xd800 ∨ 0xdfff < c.toNat ∧ c.toNat < 0x110000 := c.valid
  simp only [isLowSurrogate, isHighSurrogate, Bool.and_eq_false_iff, decide_eq_false_iff_not]
  omega

/-- A single code unit stands for its character. -/
theorem string_single {c : Char} {digits : Text} (h : IsCodeUnit c.toNat digits) (rest : Text) :
    string ('\\' :: 'u' :: (digits ++ rest)) =
      (string rest).map fun (text, rest) => (c :: text, rest) := by
  obtain ⟨x, y, z, w, rfl, hValue⟩ := h.exists_hexValue4?
  simp only [List.cons_append, List.nil_append]
  rw [string]
  simp only [hValue, not_surrogate, Bool.false_eq_true, if_false, Char.ofNat_toNat]

/-- Two code units that belong together stand for one character. -/
theorem string_pair {c : Char} {high low : Text} (hLarge : 0x10000 ≤ c.toNat)
    (hHigh : IsCodeUnit (0xd800 + (c.toNat - 0x10000) / 0x400) high)
    (hLow : IsCodeUnit (0xdc00 + (c.toNat - 0x10000) % 0x400) low) (rest : Text) :
    string ('\\' :: 'u' :: (high ++ '\\' :: 'u' :: (low ++ rest))) =
      (string rest).map fun (text, rest) => (c :: text, rest) := by
  have hValid : c.toNat < 0xd800 ∨ 0xdfff < c.toNat ∧ c.toNat < 0x110000 := c.valid
  obtain ⟨_, _, _, _, rfl, hFirst⟩ := hHigh.exists_hexValue4?
  obtain ⟨_, _, _, _, rfl, hSecond⟩ := hLow.exists_hexValue4?
  generalize hN : 0xd800 + (c.toNat - 0x10000) / 0x400 = n at hFirst
  generalize hM : 0xdc00 + (c.toNat - 0x10000) % 0x400 = m at hSecond
  have hNoLow : isLowSurrogate n = false := by
    simp only [isLowSurrogate, Bool.and_eq_false_iff, decide_eq_false_iff_not]
    omega
  have hIsHigh : isHighSurrogate n = true := by
    simp only [isHighSurrogate, Bool.and_eq_true, decide_eq_true_eq]
    omega
  have hIsLow : isLowSurrogate m = true := by
    simp only [isLowSurrogate, Bool.and_eq_true, decide_eq_true_eq]
    omega
  have hCharacter : 0x10000 + (n - 0xd800) * 0x400 + (m - 0xdc00) = c.toNat := by omega
  simp only [List.cons_append, List.nil_append]
  rw [string]
  simp only [hFirst, hNoLow, hIsHigh, hSecond, hIsLow, hCharacter, Bool.false_eq_true, if_false,
    if_true, Char.ofNat_toNat]

/-- Whichever spelling is chosen, the text is read back. -/
theorem string_of_spells {text s : Text} (h : Spells text s) (rest : Text) :
    string (s ++ '"' :: rest) = .ok (text, rest) := by
  induction h with
  | nil => rfl
  | plain hQuote hBackslash hControl _ ih =>
      rw [List.cons_append, string_cons hQuote hBackslash hControl, ih]
      rfl
  | short hEscape _ ih =>
      rw [List.cons_append, List.cons_append, string_shortEscape hEscape, ih]
      rfl
  | single hDigits _ ih =>
      rw [List.cons_append, List.cons_append, List.append_assoc, string_single hDigits, ih]
      rfl
  | pair hLarge hHigh hLow _ ih =>
      simp only [List.cons_append, List.append_assoc]
      rw [string_pair hLarge hHigh hLow, ih]
      rfl

/-- A string is skipped up to the quote that ends it. -/
theorem skipString_of_inside {s : Text} (h : Inside s) (rest : Text) :
    skipString (s ++ '"' :: rest) = .ok rest := by
  induction h with
  | nil => rfl
  | plain hQuote hBackslash hControl _ ih =>
      rw [List.cons_append, skipString, if_neg (Nat.not_lt.mpr hControl), ih]
      all_goals simp [hQuote, hBackslash]
  | @short c e s hEscape _ ih =>
      have hLong : e ≠ 'u' := by
        rintro rfl
        cases hEscape
      rw [List.cons_append, List.cons_append, skipString, hEscape]
      · exact ih
      all_goals simp [hLong]
  | unit hDigits _ ih =>
      obtain ⟨_, _, _, _, rfl, hValue⟩ := hDigits.exists_hexValue4?
      simp only [List.cons_append, List.nil_append]
      rw [skipString, hValue]
      exact ih

/-! Numbers. -/

/-- At least one digit. -/
def IsDigits (s : Text) : Prop := s ≠ [] ∧ s.all Char.isDigit = true

inductive SpellsFraction : Option Text → Text → Prop where
  | absent : SpellsFraction none []
  | point {digits : Text} (hDigits : IsDigits digits) :
      SpellsFraction (some digits) ('.' :: digits)

inductive SpellsExponent : Option (Bool × Text) → Text → Prop where
  | absent : SpellsExponent none []
  | unsigned {mark : Char} {digits : Text} (hMark : mark = 'e' ∨ mark = 'E')
      (hDigits : IsDigits digits) : SpellsExponent (some (false, digits)) (mark :: digits)
  | plus {mark : Char} {digits : Text} (hMark : mark = 'e' ∨ mark = 'E')
      (hDigits : IsDigits digits) : SpellsExponent (some (false, digits)) (mark :: '+' :: digits)
  | minus {mark : Char} {digits : Text} (hMark : mark = 'e' ∨ mark = 'E')
      (hDigits : IsDigits digits) : SpellsExponent (some (true, digits)) (mark :: '-' :: digits)

/-- A spelling of a number. No digit follows a leading zero. -/
inductive SpellsNumeral : Numeral → Text → Prop where
  | mk (minus : Bool) {whole fractionText exponentText : Text} {fraction : Option Text}
      {exponent : Option (Bool × Text)} (hWhole : IsDigits whole)
      (hZero : whole.head? = some '0' → whole = ['0'])
      (hFraction : SpellsFraction fraction fractionText)
      (hExponent : SpellsExponent exponent exponentText) :
      SpellsNumeral ⟨minus, whole, fraction, exponent⟩
        ((if minus then ['-'] else []) ++ (whole ++ (fractionText ++ exponentText)))

/-- What can follow a number without becoming a part of it. -/
def EndsNumber (rest : Text) : Prop :=
  ∀ c, rest.head? = some c → c.isDigit = false ∧ c ∉ ['.', 'e', 'E']

/-- Digits are at least one. -/
theorem IsDigits.exists_cons {s : Text} (h : IsDigits s) :
    ∃ c others, s = c :: others ∧ c.isDigit = true := by
  obtain ⟨c, others, rfl⟩ := List.exists_cons_of_ne_nil h.1
  exact ⟨c, others, rfl, List.all_eq_true.mp h.2 c (by simp)⟩

/-- A number starts with a minus sign or a digit. -/
theorem SpellsNumeral.exists_cons {n : Numeral} {s : Text} (h : SpellsNumeral n s) :
    ∃ c more, s = c :: more ∧ (c = '-' ∨ c.isDigit = true) := by
  obtain ⟨minus, hWhole, -, -, -⟩ := h
  obtain ⟨c, others, rfl, hDigit⟩ := hWhole.exists_cons
  cases minus with
  | true => exact ⟨'-', _, rfl, .inl rfl⟩
  | false => exact ⟨c, _, rfl, .inr hDigit⟩

section

variable {rest : Text} {atEnd : Problem}

/-- Digits are taken as long as there are any. -/
theorem digits_append {found : Text} (hFound : IsDigits found)
    (hStop : ∀ c, rest.head? = some c → c.isDigit = false) :
    digits atEnd (found ++ rest) = .ok (found, rest) := by
  have hDigits := List.all_eq_true.mp hFound.2
  have hRest : rest.takeWhile Char.isDigit = [] ∧ rest.dropWhile Char.isDigit = rest := by
    cases rest with
    | nil => exact ⟨rfl, rfl⟩
    | cons c rest => simp [hStop c rfl]
  rw [digits, List.takeWhile_append_of_pos hDigits, List.dropWhile_append_of_pos hDigits, hRest.1,
    hRest.2, List.append_nil]
  split
  · exact absurd rfl hFound.1
  · rfl

/-- A zero in front stands alone. -/
theorem wholePart_append {found : Text} (hFound : IsDigits found)
    (hZero : found.head? = some '0' → found = ['0'])
    (hStop : ∀ c, rest.head? = some c → c.isDigit = false) :
    wholePart atEnd (found ++ rest) = .ok (found, rest) := by
  have hDigits : digits atEnd (found ++ rest) = .ok (found, rest) := digits_append hFound hStop
  unfold wholePart
  split
  · next c more hCons =>
      have hHead : found.head? = some '0' := by
        rw [← List.head?_append_of_ne_nil _ hFound.1, hCons]
        rfl
      obtain rfl := hZero hHead
      cases hCons
      have hNoDigit : c.isDigit = false := hStop c rfl
      rw [if_neg (by simp [hNoDigit])]
  · exact hDigits

/-- The fraction is read as it is spelled, or as missing. -/
theorem fractionPart_append {fraction : Option Text} {s : Text} (h : SpellsFraction fraction s)
    (hStop : ∀ c, rest.head? = some c → c.isDigit = false ∧ c ≠ '.') :
    fractionPart atEnd (s ++ rest) = .ok (fraction, rest) := by
  cases h with
  | absent =>
      rw [List.nil_append]
      unfold fractionPart
      split
      · exact absurd rfl (hStop '.' rfl).2
      · rfl
  | point hDigits =>
      rw [List.cons_append, fractionPart, digits_append hDigits fun c hHead => (hStop c hHead).1]
      rfl

/-- So is the exponent, with its sign. -/
theorem exponentPart_append {exponent : Option (Bool × Text)} {s : Text}
    (h : SpellsExponent exponent s) (hRest : EndsNumber rest) :
    exponentPart atEnd (s ++ rest) = .ok (exponent, rest) := by
  have hFound : ∀ {found : Text}, IsDigits found →
      digits atEnd (found ++ rest) = .ok (found, rest) :=
    fun hDigits => digits_append hDigits fun c hHead => (hRest c hHead).1
  unfold exponentPart
  dsimp only
  cases h with
  | absent =>
      rw [List.nil_append]
      split
      · next c rest =>
          have hMark := (hRest c rfl).2
          simp only [List.mem_cons, List.not_mem_nil, or_false, not_or] at hMark
          rw [if_neg (by simp [hMark])]
      · rfl
  | @unsigned mark found hMark hDigits =>
      obtain ⟨c, others, rfl, hDigit⟩ := hDigits.exists_cons
      rw [List.cons_append]
      dsimp only
      rw [if_pos hMark, List.cons_append]
      split
      -- A sign is no digit.
      · next hCons => cases hCons; cases hDigit
      · next hCons => cases hCons; cases hDigit
      · rw [← List.cons_append, hFound hDigits]
        rfl
  | plus hMark hDigits =>
      simp only [List.cons_append]
      rw [if_pos hMark, hFound hDigits]
      rfl
  | minus hMark hDigits =>
      simp only [List.cons_append]
      rw [if_pos hMark, hFound hDigits]
      rfl

/-- What follows the whole part of a number, or its fraction, does not go on with a digit. -/
theorem SpellsExponent.stops {exponent : Option (Bool × Text)} {s : Text}
    (h : SpellsExponent exponent s) (hRest : EndsNumber rest) :
    ∀ c, (s ++ rest).head? = some c → c.isDigit = false ∧ c ≠ '.' := by
  have hMarks : ∀ {mark : Char} {more : Text}, mark = 'e' ∨ mark = 'E' →
      ∀ c, (mark :: more).head? = some c → c.isDigit = false ∧ c ≠ '.' := by
    rintro mark more (rfl | rfl) c ⟨⟩
    · decide
    · decide
  cases h with
  | absent =>
      intro c hHead
      obtain ⟨hDigit, hMark⟩ := hRest c hHead
      exact ⟨hDigit, fun hPoint => hMark (by simp [hPoint])⟩
  | unsigned hMark | plus hMark | minus hMark => exact hMarks hMark

/-- A fraction or what follows it ends the whole part. -/
theorem SpellsFraction.stops {fraction : Option Text} {s : Text} (h : SpellsFraction fraction s)
    (hRest : ∀ c, rest.head? = some c → c.isDigit = false ∧ c ≠ '.') :
    ∀ c, (s ++ rest).head? = some c → c.isDigit = false := by
  cases h with
  | absent => exact fun c hHead => (hRest c hHead).1
  | point =>
      rintro c ⟨⟩
      decide

/-- Whichever spelling is chosen, all of the number is read. -/
theorem numeral_of_spells {n : Numeral} {s : Text} (h : SpellsNumeral n s)
    (hRest : EndsNumber rest) : numeral atEnd (s ++ rest) = .ok (n, rest) := by
  obtain @⟨minus, whole, fractionText, exponentText, fraction, exponent, hWhole, hZero, hFraction,
    hExponent⟩ := h
  have hStop := hExponent.stops hRest
  have hParts :
      (wholePart atEnd (whole ++ (fractionText ++ (exponentText ++ rest))) >>= fun first =>
      fractionPart atEnd first.2 >>= fun second =>
      exponentPart atEnd second.2 >>= fun third =>
      pure ((⟨minus, first.1, second.1, third.1⟩ : Numeral), third.2)) =
      .ok (⟨minus, whole, fraction, exponent⟩, rest) := by
    simp only [wholePart_append hWhole hZero (hFraction.stops hStop),
      fractionPart_append hFraction hStop, exponentPart_append hExponent hRest, ok_bind]
    rfl
  simp only [List.append_assoc]
  unfold numeral
  cases minus with
  | true => exact hParts
  | false =>
      -- A sign would have to be the first digit.
      obtain ⟨c, others, rfl, hDigit⟩ := hWhole.exists_cons
      simp only [Bool.false_eq_true, if_false, List.nil_append, List.cons_append] at hParts ⊢
      split
      · next hCons => cases hCons; cases hDigit
      · exact hParts

/-- A number is skipped as far as it is spelled. -/
theorem skipNumber_of_spells {n : Numeral} {s : Text} (h : SpellsNumeral n s)
    (hRest : EndsNumber rest) : skipNumber (s ++ rest) = .ok rest := by
  rw [skipNumber, numeral_of_spells h hRest]
  rfl

end

end TwoPass.Json
