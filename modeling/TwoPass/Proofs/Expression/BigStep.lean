import TwoPass.Proofs.Expression.Completeness
import TwoPass.Proofs.Expression.Operators

/-! The meaning of derivations as rules, apart from trees and their evaluation. An operand of any
form has a value by one rule, from the values of its parts, and operators are those of the unbounded
integers. There is no rule where a result is out of range or refused, so such an expression has no
value. -/
namespace TwoPass.Expression

/-- A derivation has a value when names are looked up as given. -/
inductive Derivation.Evaluates (lookup : Text → Option UInt16) :
    {level : Level} → Derivation level → Int64 → Prop where
  | literal (token : Text) (v : Int64) (hToken : isNumeral token = true)
      (hValue : DenotesWord token v) : Evaluates lookup (.literal token v hToken hValue) v
  | name {token : Text} {hToken : isName token = true} {w : UInt16} {v : Int64}
      (hBound : lookup token = some w) (hValue : v.toInt = w.toNat) :
      Evaluates lookup (.name token hToken) v
  | parens {inner : Derivation .or} {v : Int64} (hInner : Evaluates lookup inner v) :
      Evaluates lookup (.parens inner) v
  | power {base : Derivation .primary} {exponent : Derivation .signed} {a b v : Int64}
      (hBase : Evaluates lookup base a) (hExponent : Evaluates lookup exponent b)
      (hExact : BinaryOp.power.exact a.toInt b.toInt = .ok v.toInt)
      (hTaken : BinaryOp.power.refuses a.toInt b.toInt = false) :
      Evaluates lookup (.power base exponent) v
  | unary {op : UnaryOp} {operand : Derivation .signed} {a v : Int64}
      (hOperand : Evaluates lookup operand a) (hExact : op.exact a.toInt = v.toInt) :
      Evaluates lookup (.unary op operand) v
  | binary {level : Level} {hLevel : level.associates = true} {op : BinaryOp}
      {hOp : op.level = level} {left : Derivation level} {right : Derivation level.tighter}
      {a b v : Int64} (hLeft : Evaluates lookup left a) (hRight : Evaluates lookup right b)
      (hExact : op.exact a.toInt b.toInt = .ok v.toInt)
      (hTaken : op.refuses a.toInt b.toInt = false) :
      Evaluates lookup (.binary hLevel op hOp left right) v
  | lift {level : Level} {hLevel : level ≠ .primary} {inner : Derivation level.tighter} {v : Int64}
      (hInner : Evaluates lookup inner v) : Evaluates lookup (.lift hLevel inner) v

/-- An operator on words has the exact result, if that is in range, and none elsewhere. -/
theorem UnaryOp.apply_eq_ok_iff {op : UnaryOp} {a v : Int64} :
    op.apply a = .ok v ↔ op.exact a.toInt = v.toInt := by
  rw [op.apply_eq_narrow]
  constructor
  · intro h
    exact (toInt_of_narrow h).symm
  · intro h
    rw [h, narrow_toInt]

/-- The same of two operands. An operator may also have no result over the integers, or refuse the
one that it has. -/
theorem BinaryOp.apply_eq_ok_iff {op : BinaryOp} {a b v : Int64} :
    op.apply a b = .ok v ↔
      op.exact a.toInt b.toInt = .ok v.toInt ∧ op.refuses a.toInt b.toInt = false := by
  rw [op.apply_eq_exact, bind_eq_ok_iff]
  constructor
  · rintro ⟨n, hExact, h⟩
    split at h
    · cases h
    · next hTaken => exact ⟨by rw [hExact, toInt_of_narrow h], Bool.eq_false_iff.mpr hTaken⟩
  · rintro ⟨hExact, hTaken⟩
    exact ⟨v.toInt, hExact, by rw [if_neg (by simp [hTaken]), narrow_toInt]⟩

section Trees

variable {lookup : Text → Option UInt16} {v : Int64}

/-- A name counts what it is bound to, without a sign. -/
theorem value_name_eq_ok_iff {token : Text} :
    value lookup (.name token) = .ok v ↔ ∃ w, lookup token = some w ∧ v.toInt = w.toNat := by
  have hWord : ∀ w : UInt16, (Int64.ofNat w.toNat).toInt = w.toNat := fun w =>
    Int64.toInt_ofNat_of_lt (w.toNat_lt.trans (by decide))
  rw [value]
  cases hBound : lookup token with
  | none => simp
  | some w =>
      rw [Except.ok.injEq, ← Int64.toInt_inj, hWord]
      simp [eq_comm]

/-- The operand first, and then its exact result. -/
theorem value_unary_eq_ok_iff {op : UnaryOp} {operand : Expression} :
    value lookup (.unary op operand) = .ok v ↔
      ∃ a, operand.value lookup = .ok a ∧ op.exact a.toInt = v.toInt := by
  simp only [value, bind_eq_ok_iff, UnaryOp.apply_eq_ok_iff]

/-- Both operands, and then their exact result, unless the operator refuses them. -/
theorem value_binary_eq_ok_iff {op : BinaryOp} {left right : Expression} :
    value lookup (.binary op left right) = .ok v ↔
      ∃ a b, left.value lookup = .ok a ∧ right.value lookup = .ok b ∧
        op.exact a.toInt b.toInt = .ok v.toInt ∧ op.refuses a.toInt b.toInt = false := by
  simp only [value, bind_eq_ok_iff, BinaryOp.apply_eq_ok_iff]
  constructor
  · rintro ⟨a, hLeft, b, hRight, hApply⟩
    exact ⟨a, b, hLeft, hRight, hApply⟩
  · rintro ⟨a, b, hLeft, hRight, hApply⟩
    exact ⟨a, hLeft, b, hRight, hApply⟩

end Trees

namespace Derivation

variable {lookup : Text → Option UInt16} {level : Level} {d : Derivation level} {v : Int64}

/-- What the rules give is the value of the tree. -/
theorem Evaluates.value_tree (h : d.Evaluates lookup v) : d.tree.value lookup = .ok v := by
  induction h with
  | literal => rfl
  | name hBound hValue => exact value_name_eq_ok_iff.mpr ⟨_, hBound, hValue⟩
  | parens hInner ih => exact ih
  | power hBase hExponent hExact hTaken ihBase ihExponent =>
      exact value_binary_eq_ok_iff.mpr ⟨_, _, ihBase, ihExponent, hExact, hTaken⟩
  | unary hOperand hExact ih => exact value_unary_eq_ok_iff.mpr ⟨_, ih, hExact⟩
  | binary hLeft hRight hExact hTaken ihLeft ihRight =>
      exact value_binary_eq_ok_iff.mpr ⟨_, _, ihLeft, ihRight, hExact, hTaken⟩
  | lift hInner ih => exact ih

/-- The other direction, along the derivation. -/
theorem evaluates_of_value_tree (h : d.tree.value lookup = .ok v) : d.Evaluates lookup v := by
  induction d generalizing v with
  | literal token w hToken hValue =>
      cases h
      exact .literal ..
  | name token hToken =>
      obtain ⟨w, hBound, hValue⟩ := value_name_eq_ok_iff.mp h
      exact .name hBound hValue
  | parens inner ih => exact .parens (ih h)
  | power base exponent ihBase ihExponent =>
      obtain ⟨a, b, hBase, hExponent, hExact, hTaken⟩ := value_binary_eq_ok_iff.mp h
      exact .power (ihBase hBase) (ihExponent hExponent) hExact hTaken
  | unary op operand ih =>
      obtain ⟨a, hOperand, hExact⟩ := value_unary_eq_ok_iff.mp h
      exact .unary (ih hOperand) hExact
  | binary hLevel op hOp left right ihLeft ihRight =>
      obtain ⟨a, b, hLeft, hRight, hExact, hTaken⟩ := value_binary_eq_ok_iff.mp h
      exact .binary (ihLeft hLeft) (ihRight hRight) hExact hTaken
  | lift hLevel inner ih => exact .lift (ih h)

end Derivation

/-- An expression has a value exactly if it spells a derivation of the grammar, never with more than
200 signed operands open inside each other, and the rules give that derivation the value. -/
theorem evaluate_eq_ok_iff_derivation (lookup : Text → Option UInt16) (source : Text) (v : Int64) :
    evaluate lookup source = .ok v ↔
      ∃ d : Derivation .or,
        SpelledBy source d.tokens ∧ d.depth ≤ 200 ∧ d.Evaluates lookup v := by
  rw [evaluate_eq_ok_iff]
  constructor
  · rintro ⟨e, hParse, hValue⟩
    obtain ⟨d, hSource, hDepth, rfl⟩ := parse_eq_ok_iff.mp hParse
    exact ⟨d, hSource, hDepth, Derivation.evaluates_of_value_tree hValue⟩
  · rintro ⟨d, hSource, hDepth, hEvaluates⟩
    exact ⟨d.tree, parse_of_derivation hSource hDepth, hEvaluates.value_tree⟩

theorem denotesWord_two : DenotesWord ['2'] 2 := literal?_eq_some_iff_denotesWord.mp rfl

theorem denotesWord_three : DenotesWord ['3'] 3 := literal?_eq_some_iff_denotesWord.mp rfl

/-- A sign in front of a power, which it takes as a whole. -/
def negatedSquare : Derivation .or :=
  .ofSigned <| .unary .negate <| .ofPower <|
    .power (.literal ['3'] 3 rfl denotesWord_three)
      (.ofPower <| .ofPrimary <| .literal ['2'] 2 rfl denotesWord_two)

/-- By the rules the sign goes last, and the gaps do not matter. The other way round, what an
expression evaluates to is the value of some derivation of it. -/
theorem evaluate_eq_ok_iff_derivation_negated :
    negatedSquare.Evaluates (fun _ => none) (-9) ∧
      evaluate (fun _ => none) " -3 **2 ".toList = .ok (-9) ∧
      ∃ d : Derivation .or, SpelledBy "2*(lim>>1)-7".toList d.tokens ∧ d.depth ≤ 200 ∧
        d.Evaluates (fun _ => some 9) 1 := by
  have hNine : negatedSquare.Evaluates (fun _ => none) (-9) := by
    have hSquare : BinaryOp.power.exact (3 : Int64).toInt (2 : Int64).toInt =
        .ok (9 : Int64).toInt := by decide
    have hSign : UnaryOp.negate.exact (9 : Int64).toInt = (-9 : Int64).toInt := by decide
    have hTwo := @Derivation.Evaluates.literal (fun _ => none) _ _ rfl denotesWord_two
    have hThree := @Derivation.Evaluates.literal (fun _ => none) _ _ rfl denotesWord_three
    exact ((hThree.power hTwo.lift.lift hSquare (by decide)).lift.unary
      hSign).lift.lift.lift.lift.lift.lift
  have hSpelled : SpelledBy " -3 **2 ".toList negatedSquare.tokens := by
    refine ⟨" -3 **2".toList, [' '], rfl, ?_, rfl⟩
    exact @Spells.cons [' '] _ _ _ rfl <| @Spells.cons [] _ _ _ rfl <|
      @Spells.cons [' '] _ _ _ rfl <| @Spells.cons [] _ _ _ rfl .nil
  refine ⟨hNine, (evaluate_eq_ok_iff_derivation _ _ _).mpr ⟨_, hSpelled, by decide, hNine⟩, ?_⟩
  exact (evaluate_eq_ok_iff_derivation _ _ _).mp (by decide +kernel)

end TwoPass.Expression
