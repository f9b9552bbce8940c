import TwoPass.Proofs.Expression.Value

namespace TwoPass.Expression

/-- The names in a tree, from left to right. -/
def names : Expression → List Text
  | .literal _ => []
  | .name n => [n]
  | .unary _ operand => operand.names
  | .binary _ left right => left.names ++ right.names

/-- The names that a text mentions. Of a text that cannot be read to its end, these are the names in
front of the obstacle. -/
def mentioned (source : Text) : List Text :=
  match parse source with
  | .ok e => e.names
  | .error stuck => stuck.completed.flatMap names

variable {lookup other : Text → Option UInt16}

/-- A tree asks only for the names in it. -/
theorem value_congr {e : Expression} (h : ∀ name ∈ e.names, lookup name = other name) :
    e.value lookup = e.value other := by
  induction e with
  | literal v => rfl
  | name n => rw [value, value, h n (by simp [names])]
  | unary op operand ih => rw [value, value, ih h]
  | binary op left right ihLeft ihRight =>
      have hLeft := ihLeft fun name hMem => h name (by simp [names, hMem])
      have hRight := ihRight fun name hMem => h name (by simp [names, hMem])
      rw [value, value, hLeft, hRight]

/-- Tables that agree on the names of a text give it the same value or the same failure. -/
theorem evaluate_congr {source : Text} (h : ∀ name ∈ mentioned source, lookup name = other name) :
    evaluate lookup source = evaluate other source := by
  unfold evaluate
  unfold mentioned at h
  cases hParse : parse source with
  | ok e =>
      rw [hParse] at h
      exact value_congr h
  | error stuck =>
      rw [hParse] at h
      dsimp only at h ⊢
      rw [mapM_congr fun e hTree => value_congr fun name hMem =>
        h name (List.mem_flatMap.mpr ⟨e, hTree, hMem⟩)]

theorem evaluateWord_congr {source : Text}
    (h : ∀ name ∈ mentioned source, lookup name = other name) :
    evaluateWord lookup source = evaluateWord other source := by
  rw [evaluateWord, evaluateWord, evaluate_congr h]

/-- A tree has a value only if each of its names has one. No operand is ever left out. -/
theorem isSome_of_value_eq_ok {e : Expression} {v : Int64} (h : e.value lookup = .ok v) :
    ∀ name ∈ e.names, (lookup name).isSome = true := by
  induction e generalizing v with
  | literal w => simp [names]
  | name n =>
      intro name hMem
      cases List.mem_singleton.mp hMem
      cases hFound : lookup n with
      | none => simp [value, hFound] at h
      | some w => rfl
  | unary op operand ih =>
      obtain ⟨a, ha, -⟩ := bind_eq_ok_iff.mp h
      exact ih ha
  | binary op left right ihLeft ihRight =>
      obtain ⟨a, ha, h⟩ := bind_eq_ok_iff.mp h
      obtain ⟨b, hb, -⟩ := bind_eq_ok_iff.mp h
      intro name hMem
      rcases List.mem_append.mp hMem with hLeft | hRight
      · exact ihLeft ha name hLeft
      · exact ihRight hb name hRight

/-- A text has a value only if each name that it mentions has one. -/
theorem isSome_of_evaluateWord_eq_ok {source : Text} {w : UInt16}
    (h : evaluateWord lookup source = .ok w) :
    ∀ name ∈ mentioned source, (lookup name).isSome = true := by
  obtain ⟨v, hv, -⟩ := bind_eq_ok_iff.mp h
  obtain ⟨e, hParse, hValue⟩ := evaluate_eq_ok_iff.mp hv
  rw [mentioned, hParse]
  exact isSome_of_value_eq_ok hValue

end TwoPass.Expression
