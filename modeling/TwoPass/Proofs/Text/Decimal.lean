import TwoPass.Text.Decimal

namespace TwoPass.Text

/-- A digit counts less than ten, and is the digit for what it counts. -/
theorem digitChar_of_isDigit {c : Char} (h : c.isDigit = true) :
    c.toNat - '0'.toNat < 10 ∧ Nat.digitChar (c.toNat - '0'.toNat) = c := by
  have hRange : 48 ≤ c.toNat ∧ c.toNat ≤ 57 := Char.isDigit_iff_toNat.mp h
  have hBelow : c.toNat - 48 < 10 := by omega
  refine ⟨hBelow, Char.toNat_inj.mp ?_⟩
  show (Nat.digitChar (c.toNat - 48)).toNat = c.toNat
  rw [Nat.toNat_digitChar_of_lt_ten hBelow]
  omega

/-- Digits behind a number that is not zero spell a number in the usual way. -/
theorem toDigits_append_digits {digits : Text} (h : digits.all Char.isDigit = true) (n : Nat)
    (hPositive : 0 < n) :
    Nat.toDigits 10 n ++ digits = Nat.toDigits 10 (Nat.ofDigitChars 10 digits n) := by
  induction digits generalizing n with
  | nil => simp
  | cons c rest ih =>
      rw [List.all_cons, Bool.and_eq_true] at h
      obtain ⟨hDigit, hChar⟩ := digitChar_of_isDigit h.1
      have hFirst : Nat.toDigits 10 n ++ [c] =
          Nat.toDigits 10 (10 * n + (c.toNat - '0'.toNat)) := by
        rw [← Nat.toDigits_append_toDigits (by decide) hPositive hDigit,
          Nat.toDigits_of_lt_base hDigit, hChar]
      rw [Nat.ofDigitChars_cons, ← ih h.2 _ (by omega), ← hFirst, List.append_assoc,
        List.singleton_append]

/-- A number without a leading zero is spelt in one way only. -/
theorem toDigits_of_decimal? {c : Char} {rest : Text} {n : Nat} (hZero : c ≠ '0')
    (h : decimal? (c :: rest) = some n) : c :: rest = Nat.toDigits 10 n := by
  unfold decimal? at h
  rw [if_neg (by simp)] at h
  split at h
  · next hDigits =>
      cases h
      rw [List.all_cons, Bool.and_eq_true] at hDigits
      obtain ⟨hDigit, hChar⟩ := digitChar_of_isDigit hDigits.1
      have hPositive : 0 < c.toNat - '0'.toNat := by
        have hRange : 48 ≤ c.toNat ∧ c.toNat ≤ 57 := Char.isDigit_iff_toNat.mp hDigits.1
        have hNe : c.toNat ≠ 48 := fun hEq => hZero (Char.toNat_inj.mp hEq)
        show 0 < c.toNat - 48
        omega
      rw [decimal, Nat.ofDigitChars_cons, Nat.mul_zero, Nat.zero_add,
        ← toDigits_append_digits hDigits.2 _ hPositive, Nat.toDigits_of_lt_base hDigit, hChar]
      rfl
  · cases h

end TwoPass.Text
