import TwoPass.Proofs.Assembly.Walk

namespace TwoPass

theorem boundNames_cons (line : StreamLine) (rest : List StreamLine) :
    boundNames (line :: rest) = line.binding?.toList ++ boundNames rest := by
  rw [boundNames, List.filterMap_cons]
  cases line.binding? <;> rfl

theorem mem_boundNames_cons {line : StreamLine} {rest : List StreamLine} {name : Text} :
    name ∈ boundNames (line :: rest) ↔ line.binding? = some name ∨ name ∈ boundNames rest := by
  rw [boundNames_cons, List.mem_append, Option.mem_toList]

theorem boundNames_append (lines more : List StreamLine) :
    boundNames (lines ++ more) = boundNames lines ++ boundNames more := List.filterMap_append

/-- No line binds a register. -/
theorem StreamLine.isReserved_of_binding? {line : StreamLine} {name : Text}
    (h : line.binding? = some name) : SymbolTable.isReserved name = false := by
  rw [binding?, Option.filter_eq_some_iff] at h
  simpa using h.2

theorem isReserved_of_mem_boundNames {lines : List StreamLine} {name : Text}
    (h : name ∈ boundNames lines) : SymbolTable.isReserved name = false := by
  obtain ⟨line, _, hBinding⟩ := List.mem_filterMap.mp h
  exact line.isReserved_of_binding? hBinding

namespace State

variable {sizing : Sizing} {pass : Pass} {state next : State} {line : StreamLine}
  {words : List UInt16}

/-- The one shape of all changes to the symbols, for facts that do not depend on the value. -/
theorem symbols_define_of_step (h : (state.step sizing pass line).result = .ok (next, words)) :
    (line.binding? = none ∧ next.symbols = state.symbols) ∨
      ∃ name value, line.binding? = some name ∧
        next.symbols = state.symbols.define name value := by
  rcases symbols_of_step h with hNone | ⟨label, hBinding, _, hNext⟩ |
    ⟨name, _, value, hBinding, _, _, _, hNext⟩
  · exact Or.inl hNone
  · exact Or.inr ⟨label, state.counter.toNat, hBinding, hNext⟩
  · exact Or.inr ⟨name, value.toNat, hBinding, hNext⟩

theorem get?_of_step_of_not_bound {name : Text}
    (h : (state.step sizing pass line).result = .ok (next, words))
    (hName : line.binding? ≠ some name) : next.symbols.get? name = state.symbols.get? name := by
  rcases symbols_define_of_step h with ⟨_, hNext⟩ | ⟨bound, value, hBinding, hNext⟩
  · rw [hNext]
  · have hNe : bound ≠ name := fun he => hName (he ▸ hBinding)
    rw [hNext, SymbolTable.get?_define, if_neg (fun hc => hNe hc.1)]

/-- A processed line gives a value to the name that it binds. -/
theorem mem_names_of_step {name : Text}
    (h : (state.step sizing pass line).result = .ok (next, words))
    (hName : line.binding? = some name) : name ∈ next.symbols.names := by
  have hFree : SymbolTable.isReserved name = false := line.isReserved_of_binding? hName
  rcases symbols_define_of_step h with ⟨hNone, _⟩ | ⟨bound, value, hBinding, hNext⟩
  · rw [hNone] at hName
    cases hName
  · have hEq : bound = name := by simpa [hBinding] using hName
    subst hEq
    rw [SymbolTable.mem_names_iff, hNext, SymbolTable.get?_define, if_pos ⟨rfl, hFree⟩]
    rfl

/-- The names keep their order, and a name that is new comes last. -/
theorem names_of_step (h : (state.step sizing pass line).result = .ok (next, words)) :
    next.symbols.names =
      state.symbols.names ++ line.binding?.toList.filter (· ∉ state.symbols.names) := by
  rcases symbols_define_of_step h with ⟨hNone, hNext⟩ | ⟨name, value, hBinding, hNext⟩
  · simp [hNone, hNext]
  · have hFree : SymbolTable.isReserved name = false :=
      line.isReserved_of_binding? hBinding
    rw [hNext, SymbolTable.names_define, hBinding]
    by_cases hMem : name ∈ state.symbols.names
    · simp [hMem]
    · simp [hMem, hFree]

end State

namespace Walk

variable {sizing : Sizing} {pass : Pass} {state final : State} {lines : List StreamLine}
  {records : List Record} {name : Text}

/-- A pass leaves every name alone that none of its lines binds, registers among them. -/
theorem get?_of_not_bound (walk : Walk sizing pass state lines records final)
    (hName : name ∉ boundNames lines) : final.symbols.get? name = state.symbols.get? name := by
  induction walk with
  | nil => rfl
  | @cons state next final line rest words records first others ih =>
      rw [mem_boundNames_cons, not_or] at hName
      rw [ih hName.2, State.get?_of_step_of_not_bound first hName.1]

/-- No name loses its value. -/
theorem mem_names (walk : Walk sizing pass state lines records final)
    (hName : name ∈ state.symbols.names) : name ∈ final.symbols.names := by
  induction walk with
  | nil => exact hName
  | cons first others ih =>
      apply ih
      rw [State.names_of_step first]
      exact List.mem_append_left _ hName

/-- Every name that some line binds has a value in the end. -/
theorem mem_names_of_bound (walk : Walk sizing pass state lines records final)
    (hName : name ∈ boundNames lines) : name ∈ final.symbols.names := by
  induction walk with
  | nil => simp [boundNames] at hName
  | @cons state next final line rest words records first others ih =>
      rcases mem_boundNames_cons.mp hName with hLine | hRest
      · exact others.mem_names (State.mem_names_of_step first hLine)
      · exact ih hRest

/-- A pass that binds no new name keeps the list of names. -/
theorem names_eq (walk : Walk sizing pass state lines records final)
    (hNames : ∀ name ∈ boundNames lines, name ∈ state.symbols.names) :
    final.symbols.names = state.symbols.names := by
  induction walk with
  | nil => rfl
  | @cons state next final line rest words records first others ih =>
      have hFirst : next.symbols.names = state.symbols.names := by
        rw [State.names_of_step first, List.append_right_eq_self, List.filter_eq_nil_iff]
        intro name hMem
        rw [Option.mem_toList] at hMem
        simpa using hNames name (mem_boundNames_cons.mpr (Or.inl hMem))
      rw [ih, hFirst]
      intro name hMem
      rw [hFirst]
      exact hNames name (mem_boundNames_cons.mpr (Or.inr hMem))

theorem nodup_names (walk : Walk sizing pass state lines records final)
    (hNodup : state.symbols.names.Nodup) : final.symbols.names.Nodup := by
  induction walk with
  | nil => exact hNodup
  | cons first others ih =>
      apply ih
      rcases State.symbols_define_of_step first with ⟨_, hNext⟩ | ⟨bound, value, _, hNext⟩
      · rwa [hNext]
      · rw [hNext]
        exact SymbolTable.nodup_names_define _ bound value hNodup

end Walk

end TwoPass
