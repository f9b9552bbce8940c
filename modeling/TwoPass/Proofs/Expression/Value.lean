import TwoPass.Expression.Reading
import TwoPass.Proofs.Outcome

namespace TwoPass.Expression

/-- A text has a value exactly when it can be read to its end and its tree has that value. The
failures of expressions in front of an obstacle never turn into a value. -/
theorem evaluate_eq_ok_iff {lookup : Text → Option UInt16} {source : Text} {v : Int64} :
    evaluate lookup source = .ok v ↔ ∃ e, parse source = .ok e ∧ e.value lookup = .ok v := by
  unfold evaluate
  cases hParse : parse source with
  | ok e => simp
  | error stuck =>
      simp only [bind_eq_ok_iff]
      constructor
      · rintro ⟨_, _, h⟩
        cases h
      · rintro ⟨e, h, _⟩
        cases h

/-- The tree keeps its value when more names get values. -/
theorem value_mono {lookup larger : Text → Option UInt16}
    (hLarger : ∀ name w, lookup name = some w → larger name = some w) {e : Expression} {v : Int64}
    (h : e.value lookup = .ok v) : e.value larger = .ok v := by
  induction e generalizing v with
  | literal w => exact h
  | name n =>
      cases hFound : lookup n with
      | none => simp [value, hFound] at h
      | some w => simpa [value, hFound, hLarger n w hFound] using h
  | unary op operand ih =>
      rw [value, bind_eq_ok_iff] at h ⊢
      obtain ⟨a, ha, h⟩ := h
      exact ⟨a, ih ha, h⟩
  | binary op left right ihLeft ihRight =>
      rw [value, bind_eq_ok_iff] at h ⊢
      obtain ⟨a, ha, h⟩ := h
      obtain ⟨b, hb, h⟩ := bind_eq_ok_iff.mp h
      exact ⟨a, ihLeft ha, bind_eq_ok_iff.mpr ⟨b, ihRight hb, h⟩⟩

/-- More names do not change a value that is there already. -/
theorem evaluate_mono {lookup larger : Text → Option UInt16}
    (hLarger : ∀ name w, lookup name = some w → larger name = some w) {source : Text} {v : Int64}
    (h : evaluate lookup source = .ok v) : evaluate larger source = .ok v := by
  obtain ⟨e, hParse, hValue⟩ := evaluate_eq_ok_iff.mp h
  exact evaluate_eq_ok_iff.mpr ⟨e, hParse, value_mono hLarger hValue⟩

theorem evaluateWord_mono {lookup larger : Text → Option UInt16}
    (hLarger : ∀ name w, lookup name = some w → larger name = some w) {source : Text} {w : UInt16}
    (h : evaluateWord lookup source = .ok w) : evaluateWord larger source = .ok w := by
  rw [evaluateWord, bind_eq_ok_iff] at h ⊢
  obtain ⟨v, hv, h⟩ := h
  exact ⟨v, evaluate_mono hLarger hv, h⟩

end TwoPass.Expression
