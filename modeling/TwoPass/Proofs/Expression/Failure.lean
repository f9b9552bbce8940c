import TwoPass.Expression.Reading
import TwoPass.Proofs.Outcome

namespace TwoPass.Expression

/-- The failures that values can have. -/
def Error.isOfValue : Error → Bool
  | .unbound _ | .zeroDivisor | .negativeShift | .negativeExponent | .overflow => true
  | _ => false

/-- The computation fails, if at all, as values do. -/
def FailsByValue {α : Type} (x : Except Error α) : Prop := ∀ e, x = .error e → e.isOfValue = true

namespace FailsByValue

variable {α β : Type}

theorem ok (a : α) : FailsByValue (.ok a) := by
  intro e h
  cases h

theorem error {e : Error} (h : e.isOfValue = true) : FailsByValue (.error e : Except Error α) := by
  intro other hOther
  cases hOther
  exact h

/-- A computation in steps fails as values do if each step does. -/
theorem bind {x : Except Error α} {f : α → Except Error β} (hx : FailsByValue x)
    (hf : ∀ a, FailsByValue (f a)) : FailsByValue (x >>= f) := by
  intro e h
  rcases bind_eq_error_iff.mp h with hFirst | ⟨a, -, hSecond⟩
  · exact hx e hFirst
  · exact hf a e hSecond

end FailsByValue

/-- A result out of range is an overflow. -/
theorem failsByValue_narrow (n : Int) : FailsByValue (narrow n) := by
  unfold narrow
  split
  · exact .ok _
  · exact .error rfl

/-- Powers fail only by a product that is out of range, also on the way. -/
theorem failsByValue_raiseFrom (bits : Nat) (acc base : Int64) (exponent : Nat) :
    FailsByValue (raiseFrom bits acc base exponent) := by
  induction bits generalizing acc base exponent with
  | zero => exact .ok acc
  | succ bits ih =>
      have hRest : ∀ acc, FailsByValue (if exponent ≤ 1 then .ok acc else do
          raiseFrom bits acc (← narrow (base.toInt * base.toInt)) (exponent / 2)) := by
        intro acc
        split
        · exact .ok acc
        · exact (failsByValue_narrow _).bind fun square => ih acc square (exponent / 2)
      rw [raiseFrom]
      split
      · exact (failsByValue_narrow _).bind hRest
      · exact hRest acc

/-- Of the unary operators, only negation can fail. -/
theorem UnaryOp.failsByValue_apply (op : UnaryOp) (a : Int64) : FailsByValue (op.apply a) := by
  cases op with
  | negate => exact failsByValue_narrow _
  | keep | complement => exact .ok _

/-- Each operator has its own reasons to fail, none of them about the text. -/
theorem BinaryOp.failsByValue_apply (op : BinaryOp) (a b : Int64) :
    FailsByValue (op.apply a b) := by
  cases op with
  | or | xor | and => exact .ok _
  | add | sub | mul => exact failsByValue_narrow _
  | shiftLeft =>
      change FailsByValue (scaleUp a b)
      unfold scaleUp
      repeat' split
      all_goals first | exact .ok _ | exact .error rfl
  | shiftRight =>
      change FailsByValue (scaleDown a b)
      unfold scaleDown
      repeat' split
      all_goals first | exact .ok _ | exact .error rfl
  | floorDiv =>
      change FailsByValue (floorQuotient a b)
      unfold floorQuotient
      repeat' split
      all_goals first | exact .ok _ | exact .error rfl
  | floorMod =>
      change FailsByValue (floorRemainder a b)
      unfold floorRemainder
      repeat' split
      all_goals first | exact .ok _ | exact .error rfl
  | power =>
      change FailsByValue (raise a b)
      unfold raise
      repeat' split
      all_goals first | exact failsByValue_raiseFrom _ _ _ _ | exact .error rfl

/-- Names are the only leaves that fail. -/
theorem failsByValue_value (lookup : Text → Option UInt16) (e : Expression) :
    FailsByValue (e.value lookup) := by
  induction e with
  | literal v => exact .ok v
  | name n =>
      rw [value]
      split
      · exact .ok _
      · exact .error rfl
  | unary op operand ih => exact ih.bind op.failsByValue_apply
  | binary op left right ihLeft ihRight =>
      exact ihLeft.bind fun a => ihRight.bind fun b => op.failsByValue_apply a b

/-- A failure is one of a value, or it names the obstacle at which reading has stopped. -/
theorem evaluate_eq_error_cases {lookup : Text → Option UInt16} {source : Text} {error : Error}
    (h : evaluate lookup source = .error error) :
    error.isOfValue = true ∨
      ∃ stuck, parse source = .error stuck ∧ stuck.obstacle.error source = error := by
  unfold evaluate at h
  cases hParse : parse source with
  | ok e =>
      rw [hParse] at h
      exact .inl (failsByValue_value lookup e error h)
  | error stuck =>
      rw [hParse] at h
      rcases bind_eq_error_iff.mp h with hFails | ⟨values, -, hObstacle⟩
      · obtain ⟨e, -, hFails⟩ := exists_of_mapM_eq_error hFails
        exact .inl (failsByValue_value lookup e error hFails)
      · cases hObstacle
        exact .inr ⟨stuck, rfl, rfl⟩

/-- The computation does not fail for want of a proper name. -/
def NeverNotAName {α : Type} (x : Except Error α) : Prop := ∀ text, x ≠ .error (.notAName text)

/-- The error about improper names comes from lines, never from evaluation. -/
theorem neverNotAName_evaluateWord (lookup : Text → Option UInt16) (source : Text) :
    NeverNotAName (evaluateWord lookup source) := by
  intro text h
  rcases bind_eq_error_iff.mp h with hFails | ⟨v, -, hNone⟩
  · rcases evaluate_eq_error_cases hFails with hValue | ⟨stuck, -, hObstacle⟩
    · cases hValue
    · unfold Obstacle.error at hObstacle
      split at hObstacle <;> cases hObstacle
  · cases hNone

end TwoPass.Expression
