import TwoPass.Proofs.Expression.Completeness

namespace TwoPass.Expression

section Word

variable {rounds depth : Nat} {operand : Reader} {s : Text}

/-- Nothing is left behind an operand that goes to the end, so there is no operator to look for. -/
theorem chain_of_end (level : Level) (hEnd : ∀ e rest, operand s = .ok (e, rest) → rest = []) :
    chain rounds level.joint operand s = operand s := by
  unfold chain
  cases hRead : operand s with
  | error stuck => rfl
  | ok taken =>
      obtain ⟨e, rest⟩ := taken
      cases hEnd e rest hRead
      exact chainFrom_of_none level.joint_nil operand rounds e

/-- Where nothing is left, no level finds an operator. -/
theorem levels_of_end (hEnd : ∀ e rest, operand s = .ok (e, rest) → rest = []) :
    levels rounds operand s = operand s := by
  refine Level.climb (motive := fun level => level.read rounds operand s = operand s) rfl ?_
    .or (by decide) (by decide)
  intro level hLevel hInner
  rw [Level.read_eq_chain hLevel, chain_of_end level, hInner]
  rw [hInner]
  exact hEnd

/-- A word has no sign in front and, at the end, no power behind. -/
theorem signedOperand_of_end {c : Char} {tail : Text} (hWord : isNameChar c = true)
    (hEnd : ∀ e rest,
      primary rounds (signedOperand rounds depth) (c :: tail) = .ok (e, rest) → rest = []) :
    signedOperand rounds (depth + 1) (c :: tail) =
      primary rounds (signedOperand rounds depth) (c :: tail) := by
  have hOpens : Level.primary.opens c = true := by simp [Level.opens, hWord]
  have hSkip : skipGaps (c :: tail) = c :: tail := skipGaps_cons (Level.isGap_of_opens hOpens) tail
  have hPowered : powered rounds (signedOperand rounds depth) (c :: tail) =
      primary rounds (signedOperand rounds depth) (c :: tail) := by
    unfold powered
    cases hRead : primary rounds (signedOperand rounds depth) (c :: tail) with
    | error stuck => rfl
    | ok taken =>
        obtain ⟨e, rest⟩ := taken
        cases hEnd e rest hRead
        rfl
  simp only [signedOperand, hSkip]
  split
  · next hSign => cases hSign; cases hWord
  · next hSign => cases hSign; cases hWord
  · next hSign => cases hSign; cases hWord
  · exact hPowered

/-- A source that is a single word is read as a primary. -/
theorem parse_word {c : Char} {tail : Text} (hWord : isNameChar c = true)
    (hEnd : ∀ rounds operand e rest,
      primary rounds operand (c :: tail) = .ok (e, rest) → rest = []) :
    ∃ rounds operand, parse (c :: tail) =
      (primary rounds operand (c :: tail)).map fun (e, _) => e := by
  have hOpens : Level.primary.opens c = true := by simp [Level.opens, hWord]
  have hSkip : skipGaps (c :: tail) = c :: tail := skipGaps_cons (Level.isGap_of_opens hOpens) tail
  have hSigned : signedOperand (enoughRounds (c :: tail)) depthLimit (c :: tail) = _ :=
    signedOperand_of_end hWord (hEnd _ (signedOperand (enoughRounds (c :: tail)) 199))
  refine ⟨enoughRounds (c :: tail), signedOperand (enoughRounds (c :: tail)) 199, ?_⟩
  simp only [parse, hSkip]
  rw [levels_of_end (by rw [hSigned]; exact hEnd _ _), hSigned]
  cases hRead : primary (enoughRounds (c :: tail)) (signedOperand (enoughRounds (c :: tail)) 199)
      (c :: tail) with
  | error stuck => rfl
  | ok taken =>
      obtain ⟨e, rest⟩ := taken
      cases hEnd _ _ e rest hRead
      rfl

end Word

section Numeral

variable {token : Text}

/-- Wherever a token stands as a whole, its literal is read, or it is named as it stands. -/
theorem primary_numeral (hToken : isNumeral token = true) {rest : Text}
    (hRest : ∀ c ∈ rest.head?, isNameChar c = false) (rounds : Nat) (operand : Reader) :
    primary rounds operand (token ++ rest) =
      match literal? token with
      | some v => .ok (.literal v, rest)
      | none => .error ⟨[], .badLiteral token⟩ := by
  obtain ⟨c, tail, rfl, hDigit, hTail⟩ := isNumeral_iff.mp hToken
  have hWord : (c :: tail).all isNameChar = true := by
    rw [List.all_cons, isNameChar_of_isDigit hDigit, hTail]; rfl
  obtain ⟨hSkip, hParen, hTake, hDrop⟩ := @Level.word_in_front [] c tail rest rfl hWord hRest
  rw [List.nil_append] at hSkip
  cases hLiteral : literal? (c :: tail) with
  | none => simp only [primary, hSkip, if_neg hParen, hTake, hDrop, if_pos hDigit, hLiteral]
  | some v => simp only [primary, hSkip, if_neg hParen, hTake, hDrop, if_pos hDigit, hLiteral]

/-- A numeral alone is evaluated as its literal or refused as it stands. -/
theorem evaluate_numeral (hToken : isNumeral token = true) (lookup : Text → Option UInt16) :
    evaluate lookup token =
      match literal? token with
      | some v => .ok v
      | none => .error (.badLiteral token) := by
  have hPrimary : ∀ rounds operand, primary rounds operand token =
      match literal? token with
      | some v => .ok (.literal v, [])
      | none => .error ⟨[], .badLiteral token⟩ := by
    intro rounds operand
    have hRead := @primary_numeral token hToken [] (by simp) rounds operand
    rwa [List.append_nil] at hRead
  have hEnd : ∀ rounds operand e rest,
      primary rounds operand token = .ok (e, rest) → rest = [] := by
    intro rounds operand e rest hRead
    rw [hPrimary] at hRead
    split at hRead <;> cases hRead
    rfl
  obtain ⟨c, tail, rfl, hDigit, -⟩ := isNumeral_iff.mp hToken
  obtain ⟨rounds, operand, hParse⟩ := parse_word (isNameChar_of_isDigit hDigit) hEnd
  rw [hPrimary] at hParse
  unfold evaluate
  rw [hParse]
  cases literal? (c :: tail) <;> rfl

end Numeral

section Written

/-- Only letters change with their case, and they stay letters. -/
theorem toLower_cases (c : Char) :
    c.toLower = c ∨ c.isAlpha = true ∧ c.toLower.isAlpha = true := by
  by_cases hUpper : 65 ≤ c.toNat ∧ c.toNat ≤ 90
  · have hLetters : ∀ n < 91, 65 ≤ n →
        (Char.ofNat n).isAlpha = true ∧ (Char.ofNat n).toLower.isAlpha = true := by decide
    have hLetter := hLetters c.toNat (by omega) hUpper.1
    rw [Char.ofNat_toNat] at hLetter
    exact .inr hLetter
  · exact .inl (dif_neg hUpper)

/-- The case of letters does not make them digits. -/
theorem isDigit_toLower (c : Char) : c.toLower.isDigit = c.isDigit := by
  rcases toLower_cases c with hSame | ⟨hAlpha, hLower⟩
  · rw [hSame]
  · rw [isDigit_of_isNameStart (by rw [isNameStart, hLower]; rfl),
      isDigit_of_isNameStart (by rw [isNameStart, hAlpha]; rfl)]

/-- Nor does it take them out of words. -/
theorem isNameChar_toLower (c : Char) : isNameChar c.toLower = isNameChar c := by
  rcases toLower_cases c with hSame | ⟨hAlpha, hLower⟩
  · rw [hSame]
  · simp [isNameChar, Char.isAlphanum, hAlpha, hLower]

/-- The digits of a number as they are usually written. The first one is zero for zero only. -/
theorem exists_digits {base : Nat} (hBase : 1 < base) (n : Nat) :
    ∃ digits : List Nat, Nat.toDigits base n = digits.map Nat.digitChar ∧ digits ≠ [] ∧
      (∀ d ∈ digits, d < base) ∧ Nat.ofDigits base digits.reverse = n ∧
      (digits.head? = some 0 → n = 0) ∧ (n = 0 → digits = [0]) := by
  induction n using Nat.strongRecOn with
  | ind n ih =>
      rcases Nat.lt_or_ge n base with hSmall | hLarge
      · exact ⟨[n], Nat.toDigits_of_lt_base hSmall, by simp, by simpa using hSmall, by simp,
          by simp, by simp⟩
      · have hDigit : n % base < base := Nat.mod_lt n (by omega)
        have hQuotient : n / base ≠ 0 := Nat.div_ne_zero_iff.mpr ⟨by omega, hLarge⟩
        obtain ⟨digits, hDigits, hNonempty, hBelow, hNumber, hHead, -⟩ :=
          ih (n / base) (Nat.div_lt_self (by omega) hBase)
        refine ⟨digits ++ [n % base], ?_, by simp, ?_, ?_, fun hZero => ?_, by omega⟩
        · rw [Nat.toDigits_of_base_le hBase hLarge, hDigits, List.map_append, List.map_singleton]
        · rw [List.forall_mem_append, List.forall_mem_singleton]
          exact ⟨hBelow, hDigit⟩
        · rw [List.reverse_append, List.reverse_singleton, List.singleton_append,
            Nat.ofDigits_cons, hNumber]
          exact Nat.mod_add_div n base
        · rw [List.head?_append_of_ne_nil _ hNonempty] at hZero
          exact absurd (hHead hZero) hQuotient

/-- The token writes the number in the radix, with letters of either case and with underscores
anywhere behind the mark. There may be zeros in front, in decimal only in front of zero. -/
def Radix.Writes (radix : Radix) (n : Nat) (token : Text) : Prop :=
  ∃ zeros spelled, token.map Char.toLower = radix.mark ++ spelled ∧
    spelled.filter (· != '_') = List.replicate zeros '0' ++ Nat.toDigits radix.base n ∧
    (radix = .decimal → n = 0 ∨ zeros = 0)

namespace Radix.Writes

variable {radix : Radix} {n : Nat} {token : Text}

/-- What is written has digits that spell its number. -/
theorem exists_digits (h : radix.Writes n token) :
    ∃ digits, radix.Spells digits token ∧ radix.Proper digits ∧
      Nat.ofDigits radix.base digits.reverse = n := by
  obtain ⟨zeros, spelled, hMark, hSpelled, hIdle⟩ := h
  obtain ⟨digits, hDigits, hNonempty, hBelow, hNumber, hHead, hNull⟩ :=
    Expression.exists_digits radix.one_lt_base n
  refine ⟨List.replicate zeros 0 ++ digits, ⟨spelled, hMark, ?_⟩, ⟨?_, ?_, ?_⟩, ?_⟩
  · rw [hSpelled, hDigits, List.map_append, List.map_replicate]
    rfl
  · simp [hNonempty]
  · rw [List.forall_mem_append]
    refine ⟨fun d hd => ?_, hBelow⟩
    rw [List.eq_of_mem_replicate hd]
    exact Nat.zero_lt_of_lt radix.one_lt_base
  · intro hDecimal hZero
    have hNumberZero : n = 0 := by
      rcases hIdle hDecimal with hNumberZero | rfl
      · exact hNumberZero
      · exact hHead hZero
    rw [hNull hNumberZero, List.forall_mem_append, List.forall_mem_singleton]
    exact ⟨fun d hd => List.eq_of_mem_replicate hd, rfl⟩
  · rw [List.reverse_append, List.reverse_replicate, Nat.ofDigits_append_replicate_zero, hNumber]

/-- What is written denotes its number. -/
theorem denotes (h : radix.Writes n token) : Denotes token n := by
  obtain ⟨digits, hDigits⟩ := h.exists_digits
  exact ⟨radix, digits, hDigits⟩

theorem ne_nil (h : radix.Writes n token) : token ≠ [] := by
  obtain ⟨digits, ⟨spelled, hMark, hSpelled⟩, hProper, -⟩ := h.exists_digits
  rintro rfl
  have hEmpty : spelled = [] := (List.append_eq_nil_iff.mp hMark.symm).2
  rw [hEmpty] at hSpelled
  exact hProper.nonempty (List.map_eq_nil_iff.mp hSpelled.symm)

theorem all_isNameChar (h : radix.Writes n token) : token.all isNameChar = true := by
  obtain ⟨digits, ⟨spelled, hMark, hSpelled⟩, hProper, -⟩ := h.exists_digits
  have hDigits : ∀ d < 16, isNameChar (Nat.digitChar d) = true := by decide
  have hLower : (token.map Char.toLower).all isNameChar = true := by
    rw [hMark, List.all_append, Bool.and_eq_true]
    refine ⟨by cases radix <;> decide, List.all_eq_true.mpr fun c hMem => ?_⟩
    rcases Spells.exists_digit hSpelled c hMem with rfl | ⟨d, hd, rfl⟩
    · decide
    · exact hDigits d ((hProper.below d hd).trans_le radix.base_le)
  have hFold : isNameChar ∘ Char.toLower = isNameChar := funext isNameChar_toLower
  rwa [List.all_map, hFold] at hLower

/-- A mark starts with a digit. Without one, the first character can only be a digit of the number
or an underscore. -/
theorem isDigit_head {c : Char} {tail : Text} (h : radix.Writes n (c :: tail)) (hStart : c ≠ '_') :
    c.isDigit = true := by
  obtain ⟨digits, ⟨spelled, hMark, hSpelled⟩, hProper, -⟩ := h.exists_digits
  rw [← isDigit_toLower]
  cases radix with
  | decimal =>
      have hMem : c.toLower ∈ spelled := by
        rw [mark, List.nil_append] at hMark
        simp [← hMark]
      have hNot : c.toLower ≠ '_' := by
        intro hUnderscore
        rcases toLower_cases c with hSame | ⟨-, hLower⟩
        · exact hStart (hSame.symm.trans hUnderscore)
        · rw [hUnderscore] at hLower
          exact absurd hLower (by decide)
      have hDigits : ∀ d < 10, (Nat.digitChar d).isDigit = true := by decide
      obtain ⟨d, hd, hDigit⟩ := (Spells.exists_digit hSpelled _ hMem).resolve_left hNot
      rw [hDigit]
      exact hDigits d (hProper.below d hd)
  | _ =>
      rw [(List.cons.inj hMark).1]
      decide

/-- What is written is a numeral, unless it starts with an underscore. -/
theorem isNumeral (h : radix.Writes n token) (hStart : token.head? ≠ some '_') :
    isNumeral token = true := by
  obtain ⟨c, tail, rfl⟩ := List.exists_cons_of_ne_nil h.ne_nil
  have hNames := h.all_isNameChar
  rw [List.all_cons, Bool.and_eq_true] at hNames
  have hDigit : c.isDigit = true := h.isDigit_head (by rintro rfl; exact hStart rfl)
  rw [Expression.isNumeral, hDigit, hNames.2]
  rfl

end Radix.Writes

end Written

/-- A token of name characters that starts with a digit is read as a word exactly if it is a literal
of a number below 2 ^ 63; otherwise the failure shows the token as it is. So whatever number below
2 ^ 63 is written in any of the four radices, it evaluates to itself. -/
theorem literals_accepted_exactly (lookup : Text → Option UInt16) :
    (∀ token, isNumeral token = true →
      (∀ v, literal? token = some v ↔ ∃ n, Denotes token n ∧ n < 2 ^ 63 ∧ v.toInt = n) ∧
      (∀ rounds operand rest, (∀ c ∈ rest.head?, isNameChar c = false) →
        primary rounds operand (token ++ rest) =
          match literal? token with
          | some v => .ok (.literal v, rest)
          | none => .error ⟨[], .badLiteral token⟩) ∧
      evaluate lookup token =
        match literal? token with
        | some v => .ok v
        | none => .error (.badLiteral token)) ∧
    ∀ (radix : Radix) (n : Nat) (token : Text), n < 2 ^ 63 → radix.Writes n token →
      token.head? ≠ some '_' → ∃ v, evaluate lookup token = .ok v ∧ v.toInt = n := by
  constructor
  · intro token hToken
    refine ⟨fun v => literal?_eq_some_iff, fun rounds operand rest hRest => ?_, ?_⟩
    · exact primary_numeral hToken hRest rounds operand
    · exact evaluate_numeral hToken lookup
  · intro radix n token hSmall hWrites hStart
    have hValue : (Int64.ofNat n).toInt = n := Int64.toInt_ofNat_of_lt hSmall
    have hLiteral : literal? token = some (Int64.ofNat n) :=
      literal?_eq_some_iff.mpr ⟨n, hWrites.denotes, hSmall, hValue⟩
    refine ⟨Int64.ofNat n, ?_, hValue⟩
    rw [evaluate_numeral (hWrites.isNumeral hStart), hLiteral]

/-- The idle zero in front is noticed behind the underscore, and the largest word is written with
letters of both cases. -/
theorem literals_accepted_exactly_underscored :
    (isNumeral "0_1".toList = true ∧ (∀ c ∈ "+2".toList.head?, isNameChar c = false) ∧
      (¬∃ n, Denotes "0_1".toList n ∧ n < 2 ^ 63 ∧ (1 : Int64).toInt = n) ∧
      primary 0 (signedOperand 0 0) "0_1+2".toList = .error ⟨[], .badLiteral "0_1".toList⟩ ∧
      evaluate (fun _ => none) "0_1".toList = .error (.badLiteral "0_1".toList)) ∧
    9223372036854775807 < 2 ^ 63 ∧
      Radix.hexadecimal.Writes 9223372036854775807 "0X_7fFF_FFFF_ffff_FFFf_".toList ∧
      "0X_7fFF_FFFF_ffff_FFFf_".toList.head? ≠ some '_' ∧
      ∃ v, evaluate (fun _ => none) "0X_7fFF_FFFF_ffff_FFFf_".toList = .ok v ∧
        v.toInt = (9223372036854775807 : Nat) := by
  have hNumeral : isNumeral "0_1".toList = true := by decide
  have hRest : ∀ c ∈ "+2".toList.head?, isNameChar c = false := by
    rintro c ⟨⟩
    decide
  have hNone : literal? "0_1".toList = none := by decide
  have hWrites :
      Radix.hexadecimal.Writes 9223372036854775807 "0X_7fFF_FFFF_ffff_FFFf_".toList :=
    ⟨0, "_7fff_ffff_ffff_ffff_".toList, by decide, by decide +kernel, by decide⟩
  obtain ⟨hValue, hPrimary, hEvaluate⟩ :=
    (literals_accepted_exactly fun _ => none).1 "0_1".toList hNumeral
  refine ⟨⟨hNumeral, hRest, fun h => ?_, ?_, ?_⟩, by decide, hWrites, by decide, ?_⟩
  · exact absurd ((hValue 1).mpr h) (by rw [hNone]; simp)
  · have hToken := hPrimary 0 (signedOperand 0 0) "+2".toList hRest
    rw [hNone] at hToken
    exact hToken
  · rw [hNone] at hEvaluate
    exact hEvaluate
  · exact (literals_accepted_exactly fun _ => none).2 .hexadecimal 9223372036854775807 _
      (by decide) hWrites (by decide)

end TwoPass.Expression
