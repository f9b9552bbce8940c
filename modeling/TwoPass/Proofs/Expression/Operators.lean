import Mathlib.Tactic.Linarith
import TwoPass.Proofs.Expression.Word
import TwoPass.Proofs.Outcome

/-! The operators against exact arithmetic. An operator has a result at the operands where the same
operator on unbounded integers has one, and it is the same result, unless this is out of range or
the operator refuses it. In three places an operator refuses a result that is in range. -/
namespace TwoPass.Expression

/-- What a unary operator does to unbounded integers. -/
def UnaryOp.exact : UnaryOp → Int → Int
  | .negate, a => -a
  | .keep, a => a
  | .complement, a => a.lnot

/-- What a binary operator does to unbounded integers, or why it does nothing. There is no
overflow. -/
def BinaryOp.exact : BinaryOp → Int → Int → Except Error Int
  | .or, a, b => .ok (a.lor b)
  | .xor, a, b => .ok (a.xor b)
  | .and, a, b => .ok (a.land b)
  | .shiftLeft, a, b => if b < 0 then .error .negativeShift else .ok (a * 2 ^ b.toNat)
  | .shiftRight, a, b => if b < 0 then .error .negativeShift else .ok (a.fdiv (2 ^ b.toNat))
  | .add, a, b => .ok (a + b)
  | .sub, a, b => .ok (a - b)
  | .mul, a, b => .ok (a * b)
  | .floorDiv, a, b => if b = 0 then .error .zeroDivisor else .ok (a.fdiv b)
  | .floorMod, a, b => if b = 0 then .error .zeroDivisor else .ok (a - b * a.fdiv b)
  | .power, a, b => if b < 0 then .error .negativeExponent else .ok (a ^ b.toNat)

/-- Operands at which an operator reports an overflow although its exact result is in range: minus
one shifted by 63 bits, the remainder of the least word by minus one, and an exponent of more than
32 bits over zero, one or minus one. -/
def BinaryOp.refuses : BinaryOp → Int → Int → Bool
  | .shiftLeft, a, b => a == -1 && b == 63
  | .floorMod, a, b => a == -2 ^ 63 && b == -1
  | .power, a, b => decide (a.natAbs ≤ 1) && decide (2 ^ 32 ≤ b)
  | _, _, _ => false

section Shifts

variable {a count : Int64}

/-- Shifting to the left is multiplying, within the counts that are not refused. -/
theorem scaleUp_of_nonneg (hCount : ¬ count.toInt < 0) :
    scaleUp a count =
      if BinaryOp.shiftLeft.refuses a.toInt count.toInt then .error .overflow
      else narrow (a.toInt * 2 ^ count.toInt.toNat) := by
  have hLimit : (63 : Int64) ≤ count ↔ 63 ≤ count.toInt := Int64.le_iff_toInt_le
  rw [scaleUp, if_neg (mt neg_iff.mp hCount)]
  simp only [BinaryOp.refuses, Bool.and_eq_true, beq_iff_eq]
  by_cases hZero : a = 0
  · subst hZero
    rw [if_pos rfl, Int64.toInt_zero, if_neg (by omega), Int.zero_mul]
    rfl
  rw [if_neg hZero]
  by_cases hLong : 63 ≤ count.toInt
  · rw [if_pos (hLimit.mpr hLong)]
    split
    · rfl
    · next hCorner =>
        rw [narrow_of_not_fits]
        rw [fits_scaled_iff (toInt_ne_zero hZero) (by omega)]
        omega
  · have hLow : 0 ≤ count.toInt := by omega
    have hHigh : count.toInt < 64 := by omega
    have hCorner : ¬ (a.toInt = -1 ∧ count.toInt = 63) := by omega
    rw [if_neg (mt hLimit.mp hLong), if_neg hCorner]
    split
    · next hBack => rw [← toInt_shiftLeft_of_shiftBack hLow hHigh hBack, narrow_toInt]
    · next hBack => rw [narrow_of_not_fits (mt (shiftBack_eq_iff hLow hHigh).mpr hBack)]

/-- Shifting to the right is dividing and rounding down, for every count. -/
theorem scaleDown_of_nonneg (hCount : ¬ count.toInt < 0) :
    scaleDown a count = narrow (a.toInt.fdiv (2 ^ count.toInt.toNat)) := by
  have hLimit : (64 : Int64) ≤ count ↔ 64 ≤ count.toInt := Int64.le_iff_toInt_le
  have hPower : (0 : Int) ≤ 2 ^ count.toInt.toNat := pow_nonneg (by decide) _
  rw [scaleDown, if_neg (mt neg_iff.mp hCount), Int.fdiv_eq_ediv_of_nonneg _ hPower]
  simp only [hLimit]
  split
  · next hLong =>
      have hTop : (a >>> 63).toInt = a.toInt / 2 ^ 63 := toInt_shiftRight (by decide) (by decide)
      rw [ediv_two_pow_of_fits (fits_toInt a) (by omega),
        ← ediv_two_pow_of_fits (fits_toInt a) (Nat.le_refl 63), ← hTop, narrow_toInt]
  · next hShort => rw [← toInt_shiftRight (by omega) (by omega), narrow_toInt]

end Shifts

section Division

variable {a b : Int64}

/-- The quotient is rounded down. -/
theorem floorQuotient_of_ne_zero (hb : b ≠ 0) :
    floorQuotient a b = narrow (a.toInt.fdiv b.toInt) := by
  rw [floorQuotient, if_neg hb]
  cases hEscapes : quotientEscapes a b with
  | true =>
      obtain ⟨ha, hb⟩ := quotientEscapes_iff.mp hEscapes
      rw [if_pos rfl, ha, hb, narrow_of_not_fits (by decide)]
  | false =>
      rw [if_neg Bool.false_ne_true, fdiv_eq_tdiv_sub (toInt_ne_zero hb)]
      split
      · next hStep =>
          rw [if_pos ⟨mod_ne_zero_iff.mp hStep.1, signsDiffer_iff.mp hStep.2⟩,
            ← toInt_div_sub_one hEscapes hStep.1, narrow_toInt]
      · next hStep =>
          rw [if_neg, Int.sub_zero, ← toInt_div_of_not_escapes hEscapes, narrow_toInt]
          rwa [← mod_ne_zero_iff, ← signsDiffer_iff]

/-- The remainder goes with the quotient rounded down. -/
theorem floorRemainder_of_ne_zero (hb : b ≠ 0) :
    floorRemainder a b =
      if BinaryOp.floorMod.refuses a.toInt b.toInt then .error .overflow
      else narrow (a.toInt - b.toInt * a.toInt.fdiv b.toInt) := by
  have hStep : (a % b ≠ 0 ∧ signsDiffer (a % b) b = true) ↔
      ¬ b.toInt ∣ a.toInt ∧ ¬ (a.toInt < 0 ↔ b.toInt < 0) := by
    rw [mod_ne_zero_iff, signsDiffer_iff, Int64.toInt_mod]
    apply and_congr_right
    intro hRest
    rw [tmod_neg_iff hRest]
  have hEscapes : quotientEscapes a b = BinaryOp.floorMod.refuses a.toInt b.toInt := by
    rw [Bool.eq_iff_iff, quotientEscapes_iff, BinaryOp.refuses, Bool.and_eq_true, beq_iff_eq,
      beq_iff_eq]
  rw [floorRemainder, if_neg hb, hEscapes, ← Int.fmod_def, fmod_eq_tmod_add (toInt_ne_zero hb)]
  simp only [← hStep]
  congr 1
  split
  · next h => rw [← toInt_mod_add h.2, narrow_toInt]
  · rw [Int.add_zero, ← Int64.toInt_mod, narrow_toInt]

end Division

section Power

/-- A number out of range stays there when it is multiplied. -/
theorem not_fits_mul {m p : Int} (hm : ¬ Fits m) (hp : 1 ≤ p) : ¬ Fits (m * p) := by
  unfold Fits at hm ⊢
  rcases Int.lt_or_le m 0 with hNegative | hNonneg
  · have hGrows : m * p ≤ m * 1 := Int.mul_le_mul_of_nonpos_left (Int.le_of_lt hNegative) hp
    omega
  · have hGrows : m * 1 ≤ m * p := Int.mul_le_mul_of_nonneg_left hp hNonneg
    omega

/-- No square is 2^63, so a square out of range is too large for either sign. -/
theorem lt_square_of_not_fits {base : Int} (h : ¬ Fits (base * base)) : 2 ^ 63 < base * base := by
  have hNonneg : 0 ≤ base * base := mul_self_nonneg base
  unfold Fits at h
  -- The integer part of the square root of 2^63 is 3037000499.
  have hRoot : 3037000500 ≤ base ∨ base ≤ -3037000500 := by
    by_contra hSmall
    have hGap : 0 ≤ (3037000499 - base) * (3037000499 + base) :=
      Int.mul_nonneg (by omega) (by omega)
    have : base * base ≤ 3037000499 * 3037000499 := by linarith
    omega
  have : 3037000500 * 3037000500 ≤ base * base := by
    rcases hRoot with hRoot | hRoot <;> nlinarith
  omega

/-- A square that does not fit still does not fit after a factor. -/
theorem not_fits_mul_square {acc base : Int} (hAcc : acc ≠ 0) (h : ¬ Fits (base * base)) :
    ¬ Fits (acc * (base * base)) := by
  have hLarge := lt_square_of_not_fits h
  unfold Fits
  rcases Int.lt_or_gt_of_ne hAcc with hNegative | hPositive
  · have : acc * (base * base) ≤ -1 * (base * base) :=
      Int.mul_le_mul_of_nonneg_right (by omega) (by omega)
    omega
  · have : 1 * (base * base) ≤ acc * (base * base) :=
      Int.mul_le_mul_of_nonneg_right (by omega) (by omega)
    omega

theorem one_le_square_pow {base : Int} (hBase : base ≠ 0) (n : Nat) : 1 ≤ (base * base) ^ n :=
  one_le_pow₀ (Int.add_one_le_of_lt (mul_self_pos.mpr hBase))

/-- The step of repeated squaring, on whole numbers. -/
theorem pow_eq_mul_square_pow (base : Int) (exponent : Nat) :
    base ^ exponent = base ^ (exponent % 2) * (base * base) ^ (exponent / 2) := by
  rw [← pow_two, ← pow_mul, ← pow_add, Nat.mod_add_div]

/-- Only zero makes every product fit. -/
theorem base_ne_zero_of_not_fits {acc base : Int} (h : ¬ Fits (acc * base)) : base ≠ 0 := by
  rintro rfl
  rw [Int.mul_zero] at h
  exact h (by decide)

/-- Repeated squaring gives the exact product if that is in range. A square that it takes divides
the product, which is not zero as long as the base is not, so the square is in range as well. -/
theorem raiseFrom_eq_narrow {bits exponent : Nat} {acc base : Int64} (hBits : exponent < 2 ^ bits)
    (hAcc : acc.toInt ≠ 0 ∨ base.toInt = 0) :
    raiseFrom bits acc base exponent = narrow (acc.toInt * base.toInt ^ exponent) := by
  induction bits generalizing acc base exponent with
  | zero =>
      obtain rfl : exponent = 0 := by omega
      rw [raiseFrom, pow_zero, Int.mul_one, narrow_toInt]
  | succ bits ih =>
      have hHalf : exponent / 2 < 2 ^ bits := by omega
      have hRest : ∀ acc : Int64, acc.toInt ≠ 0 ∨ base.toInt = 0 →
          (if exponent ≤ 1 then .ok acc else do
            raiseFrom bits acc (← narrow (base.toInt * base.toInt)) (exponent / 2)) =
          narrow (acc.toInt * (base.toInt * base.toInt) ^ (exponent / 2)) := by
        intro acc hAcc
        split
        · rw [show exponent / 2 = 0 by omega, pow_zero, Int.mul_one, narrow_toInt]
        · by_cases hSquare : Fits (base.toInt * base.toInt)
          · obtain ⟨square, hOk, hValue⟩ := exists_narrow_eq_ok hSquare
            rw [hOk, ok_bind, ih hHalf, hValue]
            rw [hValue, mul_self_eq_zero]
            exact hAcc
          · have hBase := base_ne_zero_of_not_fits hSquare
            have hProduct := not_fits_mul_square (hAcc.resolve_right hBase) hSquare
            have hPower := one_le_square_pow hBase (exponent / 2 - 1)
            have hSplit : acc.toInt * (base.toInt * base.toInt) ^ (exponent / 2) =
                acc.toInt * (base.toInt * base.toInt) *
                  (base.toInt * base.toInt) ^ (exponent / 2 - 1) := by
              rw [mul_assoc, ← pow_succ', show exponent / 2 - 1 + 1 = exponent / 2 by omega]
            rw [hSplit, narrow_of_not_fits (not_fits_mul hProduct hPower),
              narrow_of_not_fits hSquare]
            rfl
      rw [raiseFrom, pow_eq_mul_square_pow, ← mul_assoc]
      split
      · next hOdd =>
          rw [hOdd, pow_one]
          by_cases hProduct : Fits (acc.toInt * base.toInt)
          · obtain ⟨product, hOk, hValue⟩ := exists_narrow_eq_ok hProduct
            have hNext : product.toInt ≠ 0 ∨ base.toInt = 0 := by
              rw [hValue, mul_ne_zero_iff]
              tauto
            rw [hOk, ok_bind, ← hValue]
            exact hRest product hNext
          · have hPower := one_le_square_pow (base_ne_zero_of_not_fits hProduct) (exponent / 2)
            rw [narrow_of_not_fits hProduct, narrow_of_not_fits (not_fits_mul hProduct hPower)]
            rfl
      · next hEven =>
          rw [show exponent % 2 = 0 by omega, pow_zero, Int.mul_one]
          exact hRest acc hAcc

/-- Powers of anything beyond one grow out of range within sixty-four steps. -/
theorem not_fits_pow {base : Int} (hBase : 2 ≤ base.natAbs) {n : Nat} (hn : 64 ≤ n) :
    ¬ Fits (base ^ n) := by
  have hLarge : 2 ^ 64 ≤ (base ^ n).natAbs := by
    rw [Int.natAbs_pow]
    exact (Nat.pow_le_pow_right two_pos hn).trans (Nat.pow_le_pow_left hBase n)
  unfold Fits
  omega

/-- Repeated squaring gives the power, and fails exactly where that does not fit or the exponent
is refused. -/
theorem raise_of_nonneg {base exponent : Int64} (hExponent : ¬ exponent.toInt < 0) :
    raise base exponent =
      if BinaryOp.power.refuses base.toInt exponent.toInt then .error .overflow
      else narrow (base.toInt ^ exponent.toInt.toNat) := by
  have hPower : Int.pow 2 32 = 4294967296 := rfl
  rw [raise, if_neg (mt neg_iff.mp hExponent), hPower]
  simp only [BinaryOp.refuses, Bool.and_eq_true, decide_eq_true_eq]
  split
  · next hLong =>
      split
      · rfl
      · next hBase => rw [narrow_of_not_fits (not_fits_pow (by omega) (by omega))]
  · next hShort =>
      have hOne : (1 : Int64).toInt = 1 := rfl
      rw [if_neg (by omega), raiseFrom_eq_narrow (by omega) (.inl (by decide)), hOne, Int.one_mul]

end Power

/-- A unary operator gives its exact result, if that fits. -/
theorem UnaryOp.apply_eq_narrow (op : UnaryOp) (a : Int64) :
    op.apply a = narrow (op.exact a.toInt) := by
  cases op with
  | negate => rfl
  | keep => exact (narrow_toInt a).symm
  | complement =>
      rw [apply, exact, ← toInt_not]
      exact (narrow_toInt _).symm

/-- What an operator on words does, said by the same operator on unbounded integers. -/
theorem BinaryOp.apply_eq_exact (op : BinaryOp) (a b : Int64) :
    op.apply a b = op.exact a.toInt b.toInt >>= fun n =>
      if op.refuses a.toInt b.toInt then .error .overflow else narrow n := by
  cases op with
  | or =>
      rw [BinaryOp.exact, ← toInt_or]
      exact (narrow_toInt _).symm
  | xor =>
      rw [BinaryOp.exact, ← toInt_xor]
      exact (narrow_toInt _).symm
  | and =>
      rw [BinaryOp.exact, ← toInt_and]
      exact (narrow_toInt _).symm
  | add | sub | mul => rfl
  | shiftLeft =>
      change scaleUp a b = _
      rw [BinaryOp.exact]
      split
      · next hCount => rw [scaleUp, if_pos (neg_iff.mpr hCount)]; rfl
      · next hCount => exact scaleUp_of_nonneg hCount
  | shiftRight =>
      change scaleDown a b = _
      rw [BinaryOp.exact]
      split
      · next hCount => rw [scaleDown, if_pos (neg_iff.mpr hCount)]; rfl
      · next hCount => exact scaleDown_of_nonneg hCount
  | floorDiv =>
      change floorQuotient a b = _
      rw [BinaryOp.exact]
      split
      · next hZero => rw [floorQuotient, if_pos (Int64.toInt_inj.mp hZero)]; rfl
      · next hZero => exact floorQuotient_of_ne_zero (mt (congrArg Int64.toInt) hZero)
  | floorMod =>
      change floorRemainder a b = _
      rw [BinaryOp.exact]
      split
      · next hZero => rw [floorRemainder, if_pos (Int64.toInt_inj.mp hZero)]; rfl
      · next hZero => exact floorRemainder_of_ne_zero (mt (congrArg Int64.toInt) hZero)
  | power =>
      change raise a b = _
      rw [BinaryOp.exact]
      split
      · next hExponent => rw [raise, if_pos (neg_iff.mpr hExponent)]; rfl
      · next hExponent => exact raise_of_nonneg hExponent

end TwoPass.Expression
