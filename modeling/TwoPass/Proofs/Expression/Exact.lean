import Mathlib.Data.Rat.Floor
import TwoPass.Proofs.Expression.Nesting
import TwoPass.Proofs.Expression.Operators

namespace TwoPass.Expression

/-- The value of a tree over unbounded integers. Operands go from left to right. -/
def exact (lookup : Text → Option UInt16) : Expression → Except Error Int
  | .literal v => .ok v.toInt
  | .name n =>
    match lookup n with
    | some w => .ok w.toNat
    | none => .error (.unbound n)
  | .unary op operand => do
    let a ← operand.exact lookup
    .ok (op.exact a)
  | .binary op left right => do
    let a ← left.exact lookup
    let b ← right.exact lookup
    op.exact a b

/-- The number that the digits of a literal spell, however large it is. -/
def numeral? (token : Text) : Option Nat :=
  let (radix, spelled) := splitRadix (token.map Char.toLower)
  positionalFrom? radix 0 (spelled.filter (· != '_'))

/-- A literal is the number that its digits spell, which fits. -/
theorem numeral?_of_literal? {token : Text} {v : Int64} (h : literal? token = some v) :
    ∃ n : Nat, numeral? token = some n ∧ v.toInt = n := by
  unfold literal? at h
  unfold numeral?
  dsimp only at h ⊢
  split at h
  · cases h
  · split at h
    · next n hDigits =>
        split at h
        · next hSmall =>
            cases h
            exact ⟨n, hDigits, Int64.toInt_ofNat_of_lt hSmall⟩
        · cases h
    · cases h

/-- Rounding down is rounding down of the rational quotient. -/
theorem fdiv_eq_floor (a b : Int) : a.fdiv b = ⌊(a : ℚ) / b⌋ := by
  obtain ⟨n, rfl | rfl⟩ := Int.eq_nat_or_neg b
  · rw [Int.fdiv_eq_ediv_of_nonneg a (Int.natCast_nonneg n)]
    exact (Rat.floor_intCast_div_natCast a n).symm
  · have hQuotient : (a : ℚ) / ((-n : Int) : ℚ) = ((-a : Int) : ℚ) / (n : ℚ) := by
      push_cast
      rw [div_neg, neg_div]
    rw [hQuotient, Rat.floor_intCast_div_natCast, ← Int.neg_fdiv_neg, Int.neg_neg,
      Int.fdiv_eq_ediv_of_nonneg _ (Int.natCast_nonneg n)]

/-- A remainder that is not zero has the sign of the divisor. -/
theorem sign_fmod {a b : Int} (hb : b ≠ 0) : a.fmod b = 0 ∨ (a.fmod b).sign = b.sign := by
  rcases Int.lt_or_gt_of_ne hb with hNegative | hPositive
  · have hLow := Int.fmod_nonneg_of_pos (-a) (Int.neg_pos_of_neg hNegative)
    rw [Int.neg_fmod_neg] at hLow
    rcases Int.lt_or_eq_of_le (Int.nonpos_of_neg_nonneg hLow) with h | h
    · exact .inr (by rw [Int.sign_eq_neg_one_of_neg h, Int.sign_eq_neg_one_of_neg hNegative])
    · exact .inl h
  · rcases Int.lt_or_eq_of_le (Int.fmod_nonneg_of_pos a hPositive) with h | h
    · exact .inr (by rw [Int.sign_eq_one_of_pos h, Int.sign_eq_one_of_pos hPositive])
    · exact .inl h.symm

/-- A partial operation has a result exactly if its condition for failing does not hold. -/
theorem guarded_eq_ok_iff {p : Prop} [Decidable p] {e : Error} {m n : Int} :
    (if p then .error e else .ok m : Except Error Int) = .ok n ↔ ¬ p ∧ m = n := by
  split <;> simp_all

theorem guarded_eq_error_iff {p : Prop} [Decidable p] {e e' : Error} {m : Int} :
    (if p then .error e else .ok m : Except Error Int) = .error e' ↔ p ∧ e = e' := by
  split <;> simp_all

namespace BinaryOp

variable {op : BinaryOp} {a b c : Int64}

/-- A result is the exact one. -/
theorem exact_of_apply (h : op.apply a b = .ok c) : op.exact a.toInt b.toInt = .ok c.toInt := by
  rw [apply_eq_exact] at h
  obtain ⟨n, hExact, h⟩ := bind_eq_ok_iff.mp h
  split at h
  · cases h
  · rw [hExact, toInt_of_narrow h]

/-- Apart from overflow, an operator fails where it fails over the integers, for the same reason. -/
theorem apply_eq_error_iff {e : Error} (he : e ≠ .overflow) :
    op.apply a b = .error e ↔ op.exact a.toInt b.toInt = .error e := by
  have hOverflow : ∀ n : Int, (if op.refuses a.toInt b.toInt then .error .overflow
      else narrow n : Except Error Int64) ≠ .error e := by
    intro n h
    split at h
    · cases h
      exact he rfl
    · rw [narrow_eq_ite] at h
      split at h <;> cases h
      exact he rfl
  rw [apply_eq_exact, bind_eq_error_iff]
  constructor
  · rintro (h | ⟨n, -, h⟩)
    · exact h
    · exact absurd h (hOverflow n)
  · exact .inl

end BinaryOp

/-- A value on words is the value over the integers. -/
theorem exact_of_value {lookup : Text → Option UInt16} {e : Expression} {v : Int64}
    (h : e.value lookup = .ok v) : e.exact lookup = .ok v.toInt := by
  induction e generalizing v with
  | literal w =>
      cases h
      rfl
  | name n =>
      rw [value] at h
      rw [exact]
      cases hFound : lookup n with
      | none =>
          rw [hFound] at h
          cases h
      | some w =>
          rw [hFound] at h
          cases h
          have hSmall : w.toNat < 2 ^ 63 := w.toNat_lt.trans (by decide)
          dsimp only
          rw [Int64.toInt_ofNat_of_lt hSmall]
  | unary op operand ih =>
      obtain ⟨a, ha, h⟩ := bind_eq_ok_iff.mp h
      rw [op.apply_eq_narrow] at h
      rw [exact, ih ha, toInt_of_narrow h]
      rfl
  | binary op left right ihLeft ihRight =>
      obtain ⟨a, ha, h⟩ := bind_eq_ok_iff.mp h
      obtain ⟨b, hb, h⟩ := bind_eq_ok_iff.mp h
      rw [exact, ihLeft ha, ihRight hb]
      exact op.exact_of_apply h

/-- Whatever one of the operators with a rounding or a limit of its own returns is the exact result.
Quotients are rounded down as rational numbers. -/
structure ResultsExact : Prop where
  scaleUp : ∀ a n c, scaleUp a n = .ok c → c.toInt = a.toInt * 2 ^ n.toInt.toNat
  scaleDown : ∀ a n c, scaleDown a n = .ok c → c.toInt = ⌊(a.toInt : ℚ) / 2 ^ n.toInt.toNat⌋
  floorQuotient : ∀ a b c, floorQuotient a b = .ok c → c.toInt = ⌊(a.toInt : ℚ) / b.toInt⌋
  floorRemainder : ∀ a b c, floorRemainder a b = .ok c →
    c.toInt = a.toInt - b.toInt * ⌊(a.toInt : ℚ) / b.toInt⌋ ∧
      (c.toInt = 0 ∨ c.toInt.sign = b.toInt.sign)
  raise : ∀ a n c, raise a n = .ok c → c.toInt = a.toInt ^ n.toInt.toNat

/-- Each failure other than overflow has one reason. -/
structure FailuresExact : Prop where
  zeroDivisor : ∀ (op : BinaryOp) a b, op.apply a b = .error .zeroDivisor ↔
    (op = .floorDiv ∨ op = .floorMod) ∧ b = 0
  negativeShift : ∀ (op : BinaryOp) a b, op.apply a b = .error .negativeShift ↔
    (op = .shiftLeft ∨ op = .shiftRight) ∧ b < 0
  negativeExponent : ∀ (op : BinaryOp) a b, op.apply a b = .error .negativeExponent ↔
    op = .power ∧ b < 0

/-- The steps by which words are corrected are exact wherever they are taken. A shift to the left is
taken with a count within the word and may lose bits; it has lost none exactly if the test by
shifting back, which is exact, comes to the value again. -/
structure StepsExact : Prop where
  divide : ∀ a b, quotientEscapes a b = false → (a / b).toInt = a.toInt.tdiv b.toInt
  oneLess : ∀ a b, quotientEscapes a b = false → a % b ≠ 0 → signsDiffer a b = true →
    (a / b - 1).toInt = (a / b).toInt - 1
  addDivisor : ∀ a b, a % b ≠ 0 → signsDiffer (a % b) b = true →
    (a % b + b).toInt = (a % b).toInt + b.toInt
  shift : ∀ a n : Int64, ¬ n < 0 → ¬ 63 ≤ n → (0 ≤ n.toInt ∧ n.toInt < 64) ∧
    ((a <<< n) >>> n).toInt = ⌊((a <<< n).toInt : ℚ) / 2 ^ n.toInt.toNat⌋ ∧
    ((a <<< n) >>> n = a ↔ (a <<< n).toInt = a.toInt * 2 ^ n.toInt.toNat)

/-- What each operator gives, in terms of whole numbers. -/
theorem resultsExact : ResultsExact where
  scaleUp a n c h := by
    have hExact := @BinaryOp.exact_of_apply .shiftLeft a n c h
    rw [BinaryOp.exact, guarded_eq_ok_iff] at hExact
    exact hExact.2.symm
  scaleDown a n c h := by
    have hExact := @BinaryOp.exact_of_apply .shiftRight a n c h
    rw [BinaryOp.exact, guarded_eq_ok_iff, fdiv_eq_floor] at hExact
    rw [← hExact.2]
    push_cast
    rfl
  floorQuotient a b c h := by
    have hExact := @BinaryOp.exact_of_apply .floorDiv a b c h
    rw [BinaryOp.exact, guarded_eq_ok_iff, fdiv_eq_floor] at hExact
    exact hExact.2.symm
  floorRemainder a b c h := by
    have hExact := @BinaryOp.exact_of_apply .floorMod a b c h
    rw [BinaryOp.exact, guarded_eq_ok_iff] at hExact
    obtain ⟨hb, hValue⟩ := hExact
    rw [← fdiv_eq_floor, ← hValue]
    exact ⟨rfl, Int.fmod_def .. ▸ sign_fmod hb⟩
  raise a n c h := by
    have hExact := @BinaryOp.exact_of_apply .power a n c h
    rw [BinaryOp.exact, guarded_eq_ok_iff] at hExact
    exact hExact.2.symm

/-- Where each operator fails, in terms of whole numbers. -/
theorem failuresExact : FailuresExact where
  zeroDivisor op a b := by
    rw [BinaryOp.apply_eq_error_iff (by decide), ← Int64.toInt_inj, Int64.toInt_zero]
    cases op <;> simp [BinaryOp.exact, guarded_eq_error_iff]
  negativeShift op a b := by
    rw [BinaryOp.apply_eq_error_iff (by decide), neg_iff]
    cases op <;> simp [BinaryOp.exact, guarded_eq_error_iff]
  negativeExponent op a b := by
    rw [BinaryOp.apply_eq_error_iff (by decide), neg_iff]
    cases op <;> simp [BinaryOp.exact, guarded_eq_error_iff]

/-- What the intermediate results of the operators are. -/
theorem stepsExact : StepsExact where
  divide a b hEscapes := toInt_div_of_not_escapes hEscapes
  oneLess a b hEscapes hRest _ := by
    rw [toInt_div_sub_one hEscapes hRest, toInt_div_of_not_escapes hEscapes]
  addDivisor a b _ hSigns := by
    rw [toInt_mod_add hSigns, Int64.toInt_mod]
  shift a n hNegative hLong := by
    have hLimit : (63 : Int64) ≤ n ↔ 63 ≤ n.toInt := Int64.le_iff_toInt_le
    rw [neg_iff] at hNegative
    rw [hLimit] at hLong
    have hLow : 0 ≤ n.toInt := by omega
    have hHigh : n.toInt < 64 := by omega
    refine ⟨⟨hLow, hHigh⟩, ?_, ?_⟩
    · have hPower : (0 : Int) ≤ 2 ^ n.toInt.toNat := pow_nonneg (by decide) _
      rw [toInt_shiftRight hLow hHigh, ← Int.fdiv_eq_ediv_of_nonneg _ hPower, fdiv_eq_floor]
      push_cast
      rfl
    · constructor
      · exact toInt_shiftLeft_of_shiftBack hLow hHigh
      · intro h
        rw [shiftBack_eq_iff hLow hHigh, ← h]
        exact fits_toInt _

/-- Nothing that succeeds is wrapped or rounded in a wrong way. This holds of the operators with all
their steps, of literals, and hence of whole expressions. -/
theorem evaluation_is_exact :
    ResultsExact ∧ FailuresExact ∧ StepsExact ∧
      (∀ token v, literal? token = some v → ∃ n : Nat, numeral? token = some n ∧ v.toInt = n) ∧
      ∀ lookup source v, evaluate lookup source = .ok v →
        (∃ d : Derivation .or, SpelledBy source d.tokens) ∧
          ∀ d : Derivation .or, SpelledBy source d.tokens → d.tree.exact lookup = .ok v.toInt := by
  refine ⟨resultsExact, failuresExact, stepsExact, fun _ _ h => numeral?_of_literal? h, ?_⟩
  intro lookup source v h
  obtain ⟨e, hParse, hValue⟩ := evaluate_eq_ok_iff.mp h
  obtain ⟨d, hSource, -, rfl⟩ := exists_derivation_of_parse hParse
  refine ⟨⟨d, hSource⟩, fun d' hSource' => ?_⟩
  rw [← tree_unique hSource hSource']
  exact exact_of_value hValue

/-- The quotient of a negative number is rounded down, and the remainder takes the sign of the
divisor. -/
theorem evaluation_is_exact_rounded_down :
    evaluate (fun _ => none) "-7 // 2 % 3".toList = .ok 2 ∧
      ∃ d : Derivation .or, SpelledBy "-7 // 2 % 3".toList d.tokens ∧
        d.tree.exact (fun _ => none) = .ok 2 := by
  have hValue : evaluate (fun _ => none) "-7 // 2 % 3".toList = .ok 2 := by decide +kernel
  obtain ⟨-, -, -, -, hTexts⟩ := evaluation_is_exact
  obtain ⟨⟨d, hSource⟩, hExact⟩ := hTexts _ _ _ hValue
  exact ⟨hValue, d, hSource, hExact d hSource⟩

end TwoPass.Expression
