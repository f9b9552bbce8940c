import TwoPass.Proofs.Json.Token
import TwoPass.Symbol.Dump

namespace TwoPass.Json

theorem isHexDigit_hexDigit (n : Nat) : IsHexDigit (Text.hexDigit n) (n % 16) := by
  have hDigits : ∀ d < 16, Text.hexDigits[d]? = some (Text.hexDigit d) := by decide
  rw [← Text.hexDigit_mod]
  exact .inl (hDigits (n % 16) (Nat.mod_lt n (by decide)))

/-- Four digits are a code unit. -/
theorem isCodeUnit_hex4 (word : UInt16) : IsCodeUnit word.toNat (Text.hex4 word) := by
  have hWord : word.toNat < 65536 := word.toNat_lt
  have hFirst := isHexDigit_hexDigit (word.toNat / 4096)
  rw [Nat.mod_eq_of_lt (by omega)] at hFirst
  exact ⟨hFirst, isHexDigit_hexDigit _, isHexDigit_hexDigit _, isHexDigit_hexDigit _⟩

/-- Whatever a character is, its escaped form spells it. -/
theorem Spells.escapeJson (c : Char) {text s : Text} (h : Spells text s) :
    Spells (c :: text) (SymbolTable.escapeJson c ++ s) := by
  unfold SymbolTable.escapeJson
  simp only [beq_iff_eq]
  repeat' split
  all_goals try subst c
  · exact .short rfl h
  · exact .short rfl h
  · exact .short rfl h
  · exact .short rfl h
  · exact .short rfl h
  · exact .short rfl h
  · exact .short rfl h
  · next hControl =>
      have hDigits := isCodeUnit_hex4 (UInt16.ofNat c.toNat)
      rw [UInt16.toNat_ofNat', Nat.mod_eq_of_lt (by omega)] at hDigits
      exact .single hDigits h
  · next hQuote hBackslash _ _ _ _ _ hControl =>
      exact .plain hQuote hBackslash (Nat.not_lt.mp hControl) h

/-- Escaping spells each character in one of the ways the grammar knows. -/
theorem spells_escaped (text : Text) : Spells text (text.flatMap SymbolTable.escapeJson) := by
  induction text with
  | nil => exact .nil
  | cons c text ih =>
      rw [List.flatMap_cons]
      exact ih.escapeJson c

/-- What was escaped is read back. -/
theorem string_escaped (text rest : Text) :
    string (text.flatMap SymbolTable.escapeJson ++ '"' :: rest) = .ok (text, rest) :=
  string_of_spells (spells_escaped text) rest

/-! Whole numbers. -/

section

variable {rest : Text}

/-- Numbers are written without idle zeros. -/
theorem head?_toDigits {n : Nat} (h : n ≠ 0) : (Nat.toDigits 10 n).head? ≠ some '0' := by
  induction n using Nat.strongRecOn with
  | ind n ih =>
      by_cases hSmall : n < 10
      · have hDigits : ∀ d < 10, d ≠ 0 → (Nat.toDigits 10 d).head? ≠ some '0' := by decide
        exact hDigits n hSmall h
      · rw [Nat.toDigits_of_base_le (by decide) (by omega),
          List.head?_append_of_ne_nil _ Nat.toDigits_ne_nil]
        exact ih (n / 10) (by omega) (by omega)

theorem isDigit_of_mem_toDigits {n : Nat} {c : Char} (h : c ∈ Nat.toDigits 10 n) :
    c.isDigit = true := Nat.isDigit_of_mem_toDigits (by decide) (Nat.le_refl 10) h

/-- No number but zero is written with a leading zero. -/
theorem spellsNumeral_toDigits (n : Nat) :
    SpellsNumeral ⟨false, Nat.toDigits 10 n, none, none⟩ (Nat.toDigits 10 n) := by
  have hDigits : IsDigits (Nat.toDigits 10 n) :=
    ⟨Nat.toDigits_ne_nil, List.all_eq_true.mpr fun _ => isDigit_of_mem_toDigits⟩
  have hSpells := SpellsNumeral.mk false hDigits (fun hHead => ?_) .absent .absent
  · rwa [List.append_nil, List.append_nil] at hSpells
  · have hNull : n = 0 := by
      by_contra hPositive
      exact head?_toDigits hPositive hHead
    rw [hNull]
    rfl

/-- A number of 64 bits is read back from its digits. -/
theorem number_toDigits (n : UInt64) (h : EndsNumber rest) :
    number (Nat.toDigits 10 n.toNat ++ rest) = .ok (.natural n, rest) := by
  have hFits : n.toNat < Nat.pow 2 64 := n.toNat_lt
  have hValue : Numeral.value ⟨false, Nat.toDigits 10 n.toNat, none, none⟩ rest =
      .ok (.natural n) := by
    unfold Numeral.value
    simp only [Text.decimal_toDigits]
    rw [if_pos ⟨rfl, by decide, hFits⟩, UInt64.ofNat_toNat]
  rw [number, numeral_of_spells (spellsNumeral_toDigits n.toNat) h, ok_bind]
  dsimp only
  rw [hValue]
  rfl

theorem skipSpace_toDigits (n : Nat) (rest : Text) :
    skipSpace (Nat.toDigits 10 n ++ rest) = Nat.toDigits 10 n ++ rest := by
  obtain ⟨c, others, hCons, hStart⟩ := (spellsNumeral_toDigits n).exists_cons
  rw [hCons, List.cons_append]
  exact skipSpace_token blank_nil (isSpace_of_isDigit hStart) (others ++ rest)

/-- It is also read back as a value. -/
theorem decodeValue_natural {rounds : Nat} {s : Text} (n : UInt64) (h : EndsNumber rest)
    (hDigits : skipSpace s = Nat.toDigits 10 n.toNat ++ rest) :
    decodeValue (rounds + 1) s = .ok (.number (.natural n), rest) := by
  obtain ⟨c, others, hCons, hStart⟩ := (spellsNumeral_toDigits n.toNat).exists_cons
  have hNumber := number_toDigits n h
  rw [hCons, List.cons_append] at hDigits hNumber
  rw [decodeValue_number hDigits hStart, hNumber]
  rfl

end

end TwoPass.Json
