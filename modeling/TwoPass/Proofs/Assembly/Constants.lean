import TwoPass.Proofs.Assembly.Step
import TwoPass.Proofs.Expression.Naming

namespace TwoPass

/-- A constant is kept in full, since its value has sixteen bits already. -/
theorem Performs.get?_constant {sizing : Sizing} {pass : Pass} {state next : State}
    {name expression : Text} {words : List UInt16}
    (h : Performs sizing pass state (.constant name expression) next words)
    (hFree : SymbolTable.isReserved name = false) :
    ∃ value, state.evaluate expression = .ok value ∧ next.symbols.get? name = some value := by
  obtain ⟨value, hValue, rfl, -⟩ := h.of_constant
  refine ⟨value, hValue, ?_⟩
  rw [SymbolTable.get?_define, if_pos ⟨rfl, hFree⟩, UInt16.ofNat_toNat]

/-- A text that is a name comes to the value that it is bound to, or else it is reported as unbound;
and no other text is reported as unbound as a whole. Lines accept just such texts as names of
constants. So wherever a constant has been accepted and defined, its name comes to the word that its
expression had, unless the name is that of a register. -/
theorem constants_are_read_by_name (lookup : Text → Option UInt16) (s : Text) :
    (Expression.isName s = true →
      (∀ value, lookup s = some value →
        Expression.evaluate lookup s = .ok (Int64.ofNat value.toNat)) ∧
      (lookup s = none → Expression.evaluate lookup s = .error (.unbound s))) ∧
    (Expression.evaluate lookup s = .error (.unbound s) → Expression.isName s = true) ∧
    ∀ (line : Line) (expression : Text) (statement : Statement) (sizing : Sizing) (pass : Pass)
      (state next : State) (words : List UInt16),
      line.label = none → line.constantOr s expression = .ok statement →
      (statement.perform sizing pass state).result = .ok (next, words) →
      SymbolTable.isReserved s = false →
      ∃ value, state.evaluate expression = .ok value ∧
        Expression.evaluate next.symbols.get? s = .ok (Int64.ofNat value.toNat) := by
  refine ⟨fun hName => ⟨?_, ?_⟩, Expression.isName_of_evaluate_eq_unbound, ?_⟩
  · intro value hBound
    exact Expression.evaluate_of_bound hName hBound
  · exact Expression.evaluate_of_unbound hName
  · intro line expression statement sizing pass state next words hLabel hAccepted hPerformed hFree
    -- No label takes the place of the constant, so what was accepted is the constant itself.
    rcases Line.constantOr_eq_ok_iff.mp hAccepted with ⟨hSome, -⟩ | ⟨-, hName, rfl⟩
    · rw [hLabel] at hSome
      cases hSome
    · obtain ⟨value, hValue, hBound⟩ :=
        (Statement.perform_eq_ok_iff.mp hPerformed).get?_constant hFree
      exact ⟨value, hValue, Expression.evaluate_of_bound hName hBound⟩

/-- The constant was five before, and what it is defined as is negative. It is read as the word that
stands for that. -/
theorem constants_are_read_by_name_wrapped :
    let state : State :=
      { State.initial with symbols := SymbolTable.initial.define "_z9".toList 5 }
    let line := Line.parse "_z9 EQU _z9 - 6".toList
    Expression.evaluate state.symbols.get? "_z9".toList = .ok 5 ∧
      Expression.evaluate SymbolTable.initial.get? "_z9".toList = .error (.unbound "_z9".toList) ∧
      Expression.isName "_z9".toList = true ∧
      ∃ statement next, line.constantOr "_z9".toList "_z9 - 6".toList = .ok statement ∧
        line.statement = .ok statement ∧
        (statement.perform .exact .sizing state).result = .ok (next, []) ∧
        Expression.evaluate next.symbols.get? "_z9".toList = .ok 65535 := by
  intro state line
  have hName : Expression.isName "_z9".toList = true := by decide
  have hAccepted : line.constantOr "_z9".toList "_z9 - 6".toList =
      .ok (.constant "_z9".toList "_z9 - 6".toList) := by decide +kernel
  have hStatement : line.statement = .ok (.constant "_z9".toList "_z9 - 6".toList) := by
    decide +kernel
  have hValue : state.evaluate "_z9 - 6".toList = .ok 65535 := by decide +kernel
  have hPerforms : Performs .exact .sizing state (.constant "_z9".toList "_z9 - 6".toList)
      { state with symbols := state.symbols.define "_z9".toList 65535 } [] := .constant _ hValue
  have hPerformed := Statement.perform_eq_ok_iff.mpr hPerforms
  obtain ⟨hBound, -, hConstant⟩ := constants_are_read_by_name state.symbols.get? "_z9".toList
  obtain ⟨hUnbound, hConverse, -⟩ :=
    constants_are_read_by_name SymbolTable.initial.get? "_z9".toList
  have hMissing := (hUnbound hName).2 (by decide +kernel)
  obtain ⟨value, hFound, hRead⟩ := hConstant line _ _ .exact .sizing state _ [] (by decide +kernel)
    hAccepted hPerformed (by decide)
  rw [hValue] at hFound
  cases hFound
  exact ⟨(hBound hName).1 5 (by decide +kernel), hMissing, hConverse hMissing, _, _, hAccepted,
    hStatement, hPerformed, hRead⟩

end TwoPass
