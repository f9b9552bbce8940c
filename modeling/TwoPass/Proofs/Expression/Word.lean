import Mathlib.Algebra.Group.Int.Units
import Mathlib.Algebra.Order.Ring.Int
import Mathlib.Data.Int.Bitwise
import Mathlib.Tactic.Ring
import TwoPass.Expression.Arithmetic

/-! Words and the numbers that they stand for. Each operation on 64-bit signed words is exact as
long as its exact result is in range, and the steps by which quotients and shifts are corrected
never leave the range. -/
namespace TwoPass.Expression

/-- A number that a 64-bit signed word stands for. -/
def Fits (n : Int) : Prop := -2 ^ 63 ≤ n ∧ n < 2 ^ 63

instance (n : Int) : Decidable (Fits n) := inferInstanceAs (Decidable (_ ∧ _))

theorem fits_toInt (a : Int64) : Fits a.toInt := ⟨a.le_toInt, a.toInt_lt⟩

theorem toInt_ne_zero {a : Int64} (h : a ≠ 0) : a.toInt ≠ 0 :=
  fun hZero => h (Int64.toInt_inj.mp hZero)

theorem neg_iff {a : Int64} : a < 0 ↔ a.toInt < 0 := Int64.lt_iff_toInt_lt

/-- Narrowing asks whether the number fits, and nothing else. -/
theorem narrow_eq_ite (n : Int) :
    narrow n = if Fits n then .ok (Int64.ofInt n) else .error .overflow := by
  have hRange : (Int64.minValue.toInt ≤ n ∧ n ≤ Int64.maxValue.toInt) ↔ Fits n := by
    rw [Int64.toInt_minValue, Int64.toInt_maxValue, Fits]
    omega
  simp only [narrow, hRange]

/-- A number that fits is kept. -/
theorem exists_narrow_eq_ok {n : Int} (h : Fits n) :
    ∃ a : Int64, narrow n = .ok a ∧ a.toInt = n := by
  refine ⟨Int64.ofInt n, ?_, Int64.toInt_ofInt_of_le h.1 h.2⟩
  rw [narrow_eq_ite, if_pos h]

theorem narrow_of_not_fits {n : Int} (h : ¬ Fits n) : narrow n = .error .overflow := by
  rw [narrow_eq_ite, if_neg h]

theorem narrow_toInt (a : Int64) : narrow a.toInt = .ok a := by
  rw [narrow_eq_ite, if_pos (fits_toInt a), Int64.ofInt_toInt]

/-- A narrowed number is the same number. -/
theorem toInt_of_narrow {n : Int} {a : Int64} (h : narrow n = .ok a) : a.toInt = n := by
  by_cases hFits : Fits n
  · obtain ⟨b, hOk, hValue⟩ := exists_narrow_eq_ok hFits
    rw [hOk] at h
    cases h
    exact hValue
  · rw [narrow_of_not_fits hFits] at h
    cases h

theorem bmod_of_fits {n : Int} (h : Fits n) : n.bmod (2 ^ 64) = n := Int.bmod_eq_of_le h.1 h.2

/-- Sums that fit do not wrap. -/
theorem toInt_add_of_fits {a b : Int64} (h : Fits (a.toInt + b.toInt)) :
    (a + b).toInt = a.toInt + b.toInt := by
  rw [Int64.toInt_add, bmod_of_fits h]

theorem toInt_sub_of_fits {a b : Int64} (h : Fits (a.toInt - b.toInt)) :
    (a - b).toInt = a.toInt - b.toInt := by
  rw [Int64.toInt_sub, bmod_of_fits h]

section Division

/-- Signs are compared as those of whole numbers. -/
theorem signsDiffer_iff {a b : Int64} :
    signsDiffer a b = true ↔ ¬ (a.toInt < 0 ↔ b.toInt < 0) := by
  simp [signsDiffer, neg_iff]

/-- The one quotient that does not fit. -/
theorem quotientEscapes_iff {a b : Int64} :
    quotientEscapes a b = true ↔ a.toInt = -2 ^ 63 ∧ b.toInt = -1 := by
  rw [quotientEscapes, Bool.and_eq_true, beq_iff_eq, beq_iff_eq, ← Int64.toInt_inj,
    ← Int64.toInt_inj]
  rfl

/-- The remainder tells divisibility. -/
theorem mod_ne_zero_iff {a b : Int64} : a % b ≠ 0 ↔ ¬ b.toInt ∣ a.toInt := by
  rw [Ne, ← Int64.toInt_inj, Int64.toInt_mod, Int64.toInt_zero, Int.dvd_iff_tmod_eq_zero]

/-- All other quotients are rounded towards zero. -/
theorem toInt_div_of_not_escapes {a b : Int64} (h : quotientEscapes a b = false) :
    (a / b).toInt = a.toInt.tdiv b.toInt := by
  by_cases hb : b = -1
  · refine Int64.toInt_div_of_ne_left a b ?_
    rintro rfl
    simp [quotientEscapes, hb] at h
  · exact Int64.toInt_div_of_ne_right a b hb

/-- A quotient that is not whole leaves room for one less, because its divisor is at least two. -/
theorem fits_tdiv_sub_one {a b : Int} (ha : Fits a) (hRest : ¬ b ∣ a) : Fits (a.tdiv b - 1) := by
  have hUnit : b.natAbs ≠ 1 := by
    intro hOne
    apply hRest
    rcases Int.natAbs_eq_iff.mp hOne with rfl | rfl <;> simp
  have hSize : a.natAbs / b.natAbs ≤ a.natAbs / 2 := by
    rcases Nat.eq_zero_or_pos b.natAbs with hZero | hPositive
    · rw [hZero, Nat.div_zero]
      exact Nat.zero_le _
    · exact Nat.div_le_div_left (by omega) (by decide)
  have hQuotient : (a.tdiv b).natAbs = a.natAbs / b.natAbs := Int.natAbs_tdiv a b
  unfold Fits at ha ⊢
  omega

/-- The step from the cut quotient to the one below it stays in the word. -/
theorem toInt_div_sub_one {a b : Int64} (hEscapes : quotientEscapes a b = false)
    (hRest : a % b ≠ 0) : (a / b - 1).toInt = a.toInt.tdiv b.toInt - 1 := by
  have hFits := fits_tdiv_sub_one (fits_toInt a) (mod_ne_zero_iff.mp hRest)
  rw [← toInt_div_of_not_escapes hEscapes] at hFits ⊢
  exact toInt_sub_of_fits hFits

/-- The step from the cut remainder to the one with the sign of the divisor stays in the word. -/
theorem toInt_mod_add {a b : Int64} (hSigns : signsDiffer (a % b) b = true) :
    (a % b + b).toInt = a.toInt.tmod b.toInt + b.toInt := by
  have hRest := fits_toInt (a % b)
  have hb := fits_toInt b
  rw [signsDiffer_iff] at hSigns
  rw [← Int64.toInt_mod]
  apply toInt_add_of_fits
  unfold Fits at hRest hb ⊢
  omega

/-- Rounding down differs from cutting off if the quotient is negative and not whole. -/
theorem fdiv_eq_tdiv_sub {a b : Int} (hb : b ≠ 0) :
    a.fdiv b = a.tdiv b - if ¬ b ∣ a ∧ ¬ (a < 0 ↔ b < 0) then 1 else 0 := by
  have hSign : b.sign = if b < 0 then -1 else 1 := by
    split
    · next hNegative => exact Int.sign_eq_neg_one_of_neg hNegative
    · exact Int.sign_eq_one_of_pos (by omega)
  rw [Int.fdiv_eq_tdiv, hSign]
  by_cases hRest : b ∣ a
  · simp [hRest]
  · simp only [hRest, if_false, not_false_eq_true, true_and]
    split <;> split <;> split <;> omega

/-- Rounding down adds a divisor where rounding towards zero would go up. -/
theorem fmod_eq_tmod_add {a b : Int} (hb : b ≠ 0) :
    a.fmod b = a.tmod b + if ¬ b ∣ a ∧ ¬ (a < 0 ↔ b < 0) then b else 0 := by
  rw [Int.fmod_def, Int.tmod_def, fdiv_eq_tdiv_sub hb]
  split
  · rw [Int.mul_sub]
    omega
  · rw [Int.sub_zero, Int.add_zero]

/-- The remainder of cutting off has the sign of the dividend. -/
theorem tmod_neg_iff {a b : Int} (hRest : ¬ b ∣ a) : a.tmod b < 0 ↔ a < 0 := by
  have hZero : a.tmod b ≠ 0 := mt Int.dvd_of_tmod_eq_zero hRest
  constructor
  · intro h
    by_contra hNonneg
    have := Int.tmod_nonneg b (Int.not_lt.mp hNonneg)
    omega
  · intro h
    have := Int.tmod_nonneg b (Int.neg_nonneg_of_nonpos (Int.le_of_lt h))
    rw [Int.neg_tmod] at this
    omega

end Division

section Shift

variable {a count : Int64}

/-- A count within the word is not changed before a shift. -/
theorem toNat_smod_count (hLow : 0 ≤ count.toInt) (hHigh : count.toInt < 64) :
    (count.toBitVec.smod 64).toNat = count.toInt.toNat := by
  have hWidth : (64 : BitVec 64).toInt = 64 := rfl
  have hSmod : (count.toBitVec.smod 64).toInt = count.toInt := by
    rw [BitVec.toInt_smod, hWidth, Int64.toInt_toBitVec,
      Int.fmod_eq_emod_of_nonneg _ (by decide), Int.emod_eq_of_lt hLow hHigh]
  have hSign : 0 ≤ (count.toBitVec.smod 64).toInt := hSmod ▸ hLow
  rw [← hSmod, BitVec.toNat_toInt_of_msb]
  exact BitVec.msb_eq_false_iff_two_mul_lt.mpr (BitVec.toInt_pos_iff.mp hSign)

/-- Shifting right divides, and rounds down. -/
theorem toInt_shiftRight (hLow : 0 ≤ count.toInt) (hHigh : count.toInt < 64) :
    (a >>> count).toInt = a.toInt / 2 ^ count.toInt.toNat := by
  rw [← Int64.toInt_toBitVec, Int64.toBitVec_shiftRight, BitVec.sshiftRight_eq',
    BitVec.toInt_sshiftRight, toNat_smod_count hLow hHigh, Int64.toInt_toBitVec]
  exact Int.shiftRight_eq_div_pow _ _

/-- Shifting left multiplies, and wraps. -/
theorem toInt_shiftLeft (hLow : 0 ≤ count.toInt) (hHigh : count.toInt < 64) :
    (a <<< count).toInt = (a.toInt * 2 ^ count.toInt.toNat).bmod (2 ^ 64) := by
  rw [← Int64.toInt_toBitVec, Int64.toBitVec_shiftLeft, BitVec.shiftLeft_eq',
    BitVec.toInt_shiftLeft, toNat_smod_count hLow hHigh, ← Int64.toInt_toBitVec a,
    BitVec.toInt_eq_toNat_bmod a.toBitVec, Int.bmod_mul_bmod]
  congr 1
  rw [Nat.shiftLeft_eq]
  push_cast
  rfl

/-- Shifting back comes to the value again exactly if the shift has lost nothing. What is shifted
in are zeros, so the shifted word is a multiple of the power in any case. -/
theorem shiftBack_eq_iff (hLow : 0 ≤ count.toInt) (hHigh : count.toInt < 64) :
    (a <<< count) >>> count = a ↔ Fits (a.toInt * 2 ^ count.toInt.toNat) := by
  rw [← Int64.toInt_inj, toInt_shiftRight hLow hHigh]
  constructor
  · intro h
    have hModulus : (2 : Int) ^ count.toInt.toNat ∣ ((2 ^ 64 : Nat) : Int) := by
      have : (2 : Int) ^ count.toInt.toNat ∣ 2 ^ 64 := pow_dvd_pow 2 (by omega)
      exact_mod_cast this
    have hWhole : (2 : Int) ^ count.toInt.toNat ∣ (a <<< count).toInt := by
      rw [toInt_shiftLeft hLow hHigh]
      have hLost :=
        hModulus.trans (@Int.dvd_bmod_sub_self (a.toInt * 2 ^ count.toInt.toNat) (2 ^ 64))
      exact (Int.dvd_iff_dvd_of_dvd_sub hLost).mpr (Int.dvd_mul_left _ _)
    rw [← h, Int.ediv_mul_cancel hWhole]
    exact fits_toInt _
  · intro h
    rw [toInt_shiftLeft hLow hHigh, bmod_of_fits h]
    exact Int.mul_ediv_cancel _ (pow_ne_zero _ two_ne_zero)

/-- If the way back leads to the same word, nothing has wrapped. -/
theorem toInt_shiftLeft_of_shiftBack (hLow : 0 ≤ count.toInt) (hHigh : count.toInt < 64)
    (hBack : (a <<< count) >>> count = a) :
    (a <<< count).toInt = a.toInt * 2 ^ count.toInt.toNat := by
  rw [toInt_shiftLeft hLow hHigh, bmod_of_fits ((shiftBack_eq_iff hLow hHigh).mp hBack)]

/-- Of a number other than zero scaled by 63 bits or more, only minus one comes out in range. -/
theorem fits_scaled_iff {a : Int} {n : Nat} (ha : a ≠ 0) (hn : 63 ≤ n) :
    Fits (a * 2 ^ n) ↔ a = -1 ∧ n = 63 := by
  constructor
  · rintro ⟨hLow, hHigh⟩
    obtain ⟨k, rfl⟩ := Nat.exists_eq_add_of_le hn
    have hSplit : a * 2 ^ (63 + k) = (a * 2 ^ k) * 2 ^ 63 := by ring
    have hZero : a * 2 ^ k ≠ 0 := mul_ne_zero ha (pow_ne_zero _ two_ne_zero)
    have hUnit : a * 2 ^ k = -1 := by omega
    have hPower : (0 : Int) < 2 ^ k := pow_pos two_pos k
    have hMinus : a = -1 := by
      rcases Int.eq_one_or_neg_one_of_mul_eq_neg_one hUnit with rfl | rfl
      · omega
      · rfl
    refine ⟨hMinus, ?_⟩
    cases k with
    | zero => rfl
    | succ k =>
        rw [hMinus, pow_succ] at hUnit
        omega
  · rintro ⟨rfl, rfl⟩
    decide

/-- From 63 bits on, nothing but the sign is left of a number in range. -/
theorem ediv_two_pow_of_fits {a : Int} (ha : Fits a) {n : Nat} (hn : 63 ≤ n) :
    a / 2 ^ n = if a < 0 then -1 else 0 := by
  have hPower : (2 : Int) ^ 63 ≤ 2 ^ n := pow_le_pow_right₀ (by decide) hn
  unfold Fits at ha
  split
  · exact Int.ediv_eq_neg_one_of_neg_of_le (by omega) (by omega)
  · exact Int.ediv_eq_zero_of_lt (by omega) (by omega)

end Shift

section Bits

/-- Two integers with the same bits are the same. Far enough up, the bits are the sign. -/
theorem eq_of_testBit_eq {m n : Int} (h : ∀ k, m.testBit k = n.testBit k) : m = n := by
  have hSmall : ∀ i k : Nat, i ≤ k → i.testBit k = false := by
    intro i k hLe
    exact Nat.testBit_lt_two_pow (Nat.lt_two_pow_self.trans_le (Nat.pow_le_pow_right two_pos hLe))
  have hSigns : ∀ i j : Nat, ∃ k, (Int.ofNat i).testBit k ≠ (Int.negSucc j).testBit k := by
    intro i j
    refine ⟨i + j, ?_⟩
    simp [Int.testBit, hSmall i (i + j) (by omega), hSmall j (i + j) (by omega)]
  cases m with
  | ofNat i =>
      cases n with
      | ofNat j => exact congrArg Int.ofNat (Nat.eq_of_testBit_eq h)
      | negSucc j =>
          obtain ⟨k, hk⟩ := hSigns i j
          exact absurd (h k) hk
  | negSucc i =>
      cases n with
      | ofNat j =>
          obtain ⟨k, hk⟩ := hSigns j i
          exact absurd (h k).symm hk
      | negSucc j =>
          refine congrArg Int.negSucc (Nat.eq_of_testBit_eq fun k => ?_)
          exact Bool.not_inj (h k)

/-- Beyond its last bit, a word goes on with copies of it. -/
theorem testBit_toInt (a : Int64) (k : Nat) :
    a.toInt.testBit k = a.toBitVec.getLsbD (min k 63) := by
  have hBound := a.toBitVec.isLt
  have hLast : a.toBitVec.msb = a.toBitVec.getLsbD 63 := BitVec.msb_eq_getLsbD_last _
  rw [← Int64.toInt_toBitVec, BitVec.toInt_eq_msb_cond]
  cases hSign : a.toBitVec.msb with
  | false =>
      rw [if_neg Bool.false_ne_true]
      change a.toBitVec.getLsbD k = _
      rcases Nat.lt_or_ge k 64 with hk | hk
      · rw [Nat.min_eq_left (by omega)]
      · rw [Nat.min_eq_right (by omega), ← hLast, hSign, BitVec.getLsbD_of_ge _ _ hk]
  | true =>
      have hNegative : (a.toBitVec.toNat : Int) - (2 ^ 64 : Nat) =
          Int.negSucc (2 ^ 64 - (a.toBitVec.toNat + 1)) := by
        omega
      rw [if_pos rfl, hNegative]
      change (!(2 ^ 64 - (a.toBitVec.toNat + 1)).testBit k) = _
      rw [Nat.testBit_two_pow_sub_succ hBound]
      rcases Nat.lt_or_ge k 64 with hk | hk
      · rw [Nat.min_eq_left (by omega), decide_eq_true hk, Bool.true_and, Bool.not_not]
        rfl
      · rw [Nat.min_eq_right (by omega), ← hLast, hSign, decide_eq_false (by omega)]
        rfl

/-- An operation on words that goes bit by bit does the same to the numbers. -/
theorem toInt_bitwise {f : Bool → Bool → Bool} {a b c : Int64}
    (hBits : ∀ k, c.toBitVec.getLsbD k = f (a.toBitVec.getLsbD k) (b.toBitVec.getLsbD k)) :
    c.toInt = Int.bitwise f a.toInt b.toInt := by
  apply eq_of_testBit_eq
  intro k
  rw [Int.testBit_bitwise, testBit_toInt, testBit_toInt, testBit_toInt, hBits]

/-- The bits of a word are those of its whole number. -/
theorem toInt_or (a b : Int64) : (a ||| b).toInt = a.toInt.lor b.toInt := by
  rw [← Int.bitwise_or]
  exact toInt_bitwise fun k => BitVec.getLsbD_or

theorem toInt_xor (a b : Int64) : (a ^^^ b).toInt = a.toInt.xor b.toInt := by
  rw [← Int.bitwise_xor]
  exact toInt_bitwise fun k => BitVec.getLsbD_xor

theorem toInt_and (a b : Int64) : (a &&& b).toInt = a.toInt.land b.toInt := by
  rw [← Int.bitwise_and]
  exact toInt_bitwise fun k => BitVec.getLsbD_and

theorem toInt_not (a : Int64) : (~~~a).toInt = a.toInt.lnot := by
  have hLnot : ∀ n : Int, n.lnot = -n - 1 := by
    intro n
    cases n with
    | ofNat m =>
        change Int.negSucc m = _
        rw [Int.negSucc_eq, Int.ofNat_eq_natCast]
        omega
    | negSucc m =>
        change (m : Int) = _
        rw [Int.negSucc_eq]
        omega
  have ha := fits_toInt a
  rw [Int64.toInt_not, hLnot, bmod_of_fits]
  unfold Fits at ha ⊢
  omega

end Bits

end TwoPass.Expression
