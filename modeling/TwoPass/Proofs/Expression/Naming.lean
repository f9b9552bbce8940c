import TwoPass.Proofs.Expression.Identifiers
import TwoPass.Proofs.Expression.Overflow

/-! Names as whole expressions. What a name is gets decided in two places: for a whole text at once,
and by the reader, which cuts a word out of a text and then looks for operators behind it. Both
decide alike. A name is read as itself and nothing more, and a failure for want of a value always
tells a name. -/
namespace TwoPass.Expression

/-- A primary as an expression of the loosest level. -/
def Derivation.alone (primary : Derivation .primary) : Derivation .or :=
  primary.ofPrimary.ofPower.ofSigned

/-- Behind a primary that ends the text no level finds an operator. The primary stands where a sign
could have stood, which costs it one level of depth. -/
theorem parse_of_primary {source : Text} {primary : Derivation .primary}
    (hSource : SpelledBy source primary.tokens) (hDepth : primary.depth < depthLimit) :
    parse source = .ok primary.tree := by
  have hTokens : SpelledBy source primary.alone.tokens := hSource
  have hOpen : primary.alone.depth ≤ depthLimit := hDepth
  exact parse_of_derivation hTokens hOpen

/-- A name alone is a whole expression. -/
theorem parse_of_isName {s : Text} (h : isName s = true) : parse s = .ok (.name s) := by
  have hSource : SpelledBy s (Derivation.name s h).tokens :=
    ⟨s, [], (List.append_nil s).symm, .single s, rfl⟩
  have hDepth : (Derivation.name s h).depth < depthLimit :=
    show 0 < depthLimit by decide
  exact parse_of_primary hSource hDepth

section

variable {lookup : Text → Option UInt16} {s source n : Text}

theorem evaluate_of_bound {w : UInt16} (hName : isName s = true) (hBound : lookup s = some w) :
    evaluate lookup s = .ok (Int64.ofNat w.toNat) := by
  rw [evaluate_of_parse (parse_of_isName hName), value, hBound]

theorem evaluate_of_unbound (hName : isName s = true) (hUnbound : lookup s = none) :
    evaluate lookup s = .error (.unbound s) := by
  rw [evaluate_of_parse (parse_of_isName hName), value, hUnbound]

/-- Operators do not ask for names. -/
theorem UnaryOp.apply_ne_unbound (op : UnaryOp) (a : Int64) : op.apply a ≠ .error (.unbound n) := by
  rw [apply_eq_narrow, narrow]
  intro h
  split at h <;> cases h

theorem BinaryOp.apply_ne_unbound (op : BinaryOp) (a b : Int64) :
    op.apply a b ≠ .error (.unbound n) := by
  have hOther : Error.unbound n ≠ .overflow := by simp
  intro h
  have hExact := (apply_eq_error_iff hOther).mp h
  cases op <;> simp [BinaryOp.exact, guarded_eq_error_iff] at hExact

/-- Operators do not know of names, so a missing value is that of a name in the tree. -/
theorem mem_names_of_value_eq_unbound {e : Expression} (h : e.value lookup = .error (.unbound n)) :
    n ∈ e.names := by
  induction e with
  | literal v => cases h
  | name m =>
      rw [value] at h
      split at h
      · cases h
      · cases h
        exact List.mem_singleton_self n
  | unary op operand ih =>
      rcases bind_eq_error_iff.mp h with hOperand | ⟨a, -, hApply⟩
      · exact ih hOperand
      · exact absurd hApply (op.apply_ne_unbound a)
  | binary op left right ihLeft ihRight =>
      rcases bind_eq_error_iff.mp h with hLeft | ⟨a, -, h⟩
      · exact List.mem_append_left _ (ihLeft hLeft)
      · rcases bind_eq_error_iff.mp h with hRight | ⟨b, -, hApply⟩
        · exact List.mem_append_right _ (ihRight hRight)
        · exact absurd hApply (op.apply_ne_unbound a b)

/-- A name that evaluation misses is one that the text mentions. -/
theorem mem_mentioned_of_evaluate_eq_unbound (h : evaluate lookup source = .error (.unbound n)) :
    n ∈ mentioned source := by
  unfold evaluate at h
  unfold mentioned
  cases hParse : parse source with
  | ok e =>
      rw [hParse] at h
      exact mem_names_of_value_eq_unbound h
  | error stuck =>
      rw [hParse] at h
      rcases bind_eq_error_iff.mp h with hFails | ⟨values, -, hObstacle⟩
      · obtain ⟨e, hTree, hFails⟩ := exists_of_mapM_eq_error hFails
        exact List.mem_flatMap.mpr ⟨e, hTree, mem_names_of_value_eq_unbound hFails⟩
      · -- An obstacle is about the text, whatever values there are.
        have hError : stuck.obstacle.error source = .unbound n := Except.error.inj hObstacle
        unfold Obstacle.error at hError
        split at hError <;> cases hError

/-- What an evaluation misses is a name, since it has been cut out of the text as one. -/
theorem isName_of_evaluate_eq_unbound (h : evaluate lookup source = .error (.unbound n)) :
    isName n = true := by
  have hIdentifier : n ∈ identifiers source :=
    (mentioned_first source).subset (mem_mentioned_of_evaluate_eq_unbound h)
  exact (List.mem_filter.mp hIdentifier).2

end

end TwoPass.Expression
