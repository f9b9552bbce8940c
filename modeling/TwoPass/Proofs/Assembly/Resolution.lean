import TwoPass.Proofs.Assembly.Agreement

/-! References under exact sizing, in programs that bind each name once. The emitting pass then
gives every name the value that it has already, so all of its lines see the same table, which is
the table of the result. It makes no difference whether a name is bound in front of the line that
mentions it or behind it. -/
namespace TwoPass

namespace Overlay

variable {sized emitted sized' emitted' : State} {words measured : List UInt16}

/-- A line that gives its name the value that the name has already leaves the table alone. -/
theorem symbols_of_step {line : StreamLine} (h : Overlay sized emitted)
    (hSized : (sized.step .exact .sizing line).result = .ok (sized', measured))
    (hEmitted : (emitted.step .exact .emit line).result = .ok (emitted', words))
    (hKnown : ∀ name, line.binding? = some name →
      emitted.symbols.get? name = sized'.symbols.get? name) :
    emitted'.symbols = emitted.symbols := by
  rcases State.symbols_define_of_step hEmitted with ⟨_, hNext⟩ | ⟨name, value, hBinding, hNext⟩
  · exact hNext
  · have hFree := line.isReserved_of_binding? hBinding
    have hValue : emitted'.symbols.get? name = some (UInt16.ofNat value) := by
      rw [hNext, SymbolTable.get?_define, if_pos ⟨rfl, hFree⟩]
    have hBound := State.mem_names_of_step hSized hBinding
    rw [SymbolTable.mem_names_iff, Option.isSome_iff_exists] at hBound
    obtain ⟨found, hFound⟩ := hBound
    -- Both passes bind the name to the same value, and this is what it was known as.
    have hSame : emitted.symbols.get? name = some (UInt16.ofNat value) := by
      rw [hKnown name hBinding, hFound, ← hValue]
      exact ((h.step hSized hEmitted).symbols name found hFound).symm
    rw [hNext]
    exact SymbolTable.define_eq_self fun _ => hSame

/-- As long as no name is bound again, the emitting pass keeps the table in which the sizing pass
has ended. -/
theorem symbols_of_walk {front back : List StreamLine} {sizes records : List Record}
    {last before : State} (h : Overlay sized emitted)
    (hSized : Walk .exact .sizing sized (front ++ back) sizes last)
    (hEmitted : Walk .exact .emit emitted front records before)
    (hStart : emitted.symbols = last.symbols) (hOnce : (boundNames (front ++ back)).Nodup) :
    before.symbols = last.symbols := by
  induction hEmitted generalizing sized sizes with
  | nil => exact hStart
  | @cons emitted emitted' before line rest words records first others ih =>
      cases hSized with
      | @cons _ sized' _ _ _ measured sizes first' others' =>
          rw [List.cons_append, boundNames_cons, List.nodup_append] at hOnce
          obtain ⟨_, hRest, hApart⟩ := hOnce
          have hKnown : ∀ name, line.binding? = some name →
              emitted.symbols.get? name = sized'.symbols.get? name := by
            intro name hBinding
            have hLater : name ∉ boundNames (rest ++ back) := by
              intro hMem
              exact hApart name (by simp [hBinding]) name hMem rfl
            rw [hStart, others'.get?_of_not_bound hLater]
          have hNext := h.symbols_of_step first' first hKnown
          exact ih (h.step first' first) others' (hNext.trans hStart) hRest

end Overlay

/-- A record that can be told from a table alone: its words are the values of its operands, its
label is its address and its constant the value of its expression, all of them in that table. -/
structure Record.Resolves (record : Record) (symbols : SymbolTable) : Prop where
  data : ∀ expressions, record.line.statement = .ok (.data expressions) →
    expressions.mapM (Expression.evaluateWord symbols.get?) = .ok record.words
  instruction : ∀ predicate slot operands,
    record.line.statement = .ok (.instruction predicate slot operands) →
    ∃ values, operands.evaluate (Expression.evaluateWord symbols.get?) = .ok values ∧
      record.words = Instruction.encode predicate slot values
  label : ∀ label, record.line.label = some label → SymbolTable.isReserved label = false →
    symbols.get? label = some (UInt16.ofNat record.address.toNat)
  constant : ∀ name expression, record.line.statement = .ok (.constant name expression) →
    SymbolTable.isReserved name = false →
    ∃ value, Expression.evaluateWord symbols.get? expression = .ok value ∧
      symbols.get? name = some value

namespace State

variable {sizing : Sizing} {state next : State} {record : Record}

/-- Where the table does not change, the operands of a line see the table in front of it. -/
theorem labelled_symbols {pass : Pass} {line : StreamLine} {words : List UInt16}
    (h : (state.step sizing pass line).result = .ok (next, words))
    (hFixed : next.symbols = state.symbols) : (state.labelled line).symbols = state.symbols := by
  cases hLabel : line.label with
  | none => simp [labelled, hLabel]
  | some label =>
      rw [← hFixed, symbols_of_labelled_step h hLabel]
      simp [labelled, hLabel]

theorem resolves_of_step
    (h : (state.step sizing .emit record.line).result = .ok (next, record.words))
    (hAddress : record.address = state.counter) (hFixed : next.symbols = state.symbols) :
    record.Resolves state.symbols := by
  have hLabelled := labelled_symbols h hFixed
  have hEvaluate : (state.labelled record.line).evaluate =
      Expression.evaluateWord state.symbols.get? := by
    funext expression
    rw [evaluate, hLabelled]
  obtain ⟨statement, hStatement, hPerforms⟩ := step_eq_ok_iff.mp h
  constructor
  · intro expressions hData
    rw [hStatement] at hData
    cases hData
    cases hPerforms with
    | write _ hWords =>
        rw [← hEvaluate]
        exact hWords
  · intro predicate slot operands hInstruction
    rw [hStatement] at hInstruction
    cases hInstruction
    cases hPerforms with
    | write _ hWords =>
        rw [← hEvaluate]
        exact Statement.words_instruction_eq_ok_iff.mp hWords
  · intro label hLabel hFree
    rw [hAddress, ← hFixed, symbols_of_labelled_step h hLabel, SymbolTable.get?_define,
      if_pos ⟨rfl, hFree⟩]
  · intro name expression hConstant hFree
    rw [hStatement] at hConstant
    cases hConstant
    generalize hWords : record.words = words at hPerforms
    cases hPerforms with
    | @constant _ _ _ _ value hValue =>
        rw [hEvaluate] at hValue
        refine ⟨value, hValue, ?_⟩
        rw [← hFixed, SymbolTable.get?_define, if_pos ⟨rfl, hFree⟩, UInt16.ofNat_toNat]
    | write hPlaces => cases hPlaces

end State

/-- In a program that binds each name once, every reference is to the final layout: what the
listing shows of a line can be computed from the line in the table of the result. Register names
are not bound by any line and may stand as labels anywhere. -/
theorem references_resolve {source : Text} {stream : List StreamLine} {macros : MacroTable}
    {sink : Sink} {assembly : Assembly} (hSweep : (sweep source).result = .ok (stream, macros))
    (hOnce : (boundNames stream).Nodup)
    (hRun : (Assembly.run .exact sink source).result = .ok assembly) :
    ∃ records, (Assembly.run .exact (.writer none) source).records = records ∧
      records.map Record.line = stream ∧
      ∀ record ∈ records, record.Resolves assembly.symbols := by
  obtain ⟨stream', start, final, records, hPrepare, walk, _, rfl⟩ :=
    Assembly.run_eq_ok_iff.mp hRun
  obtain ⟨macros', sized, hSweep', hSized, rfl⟩ := Assembly.prepare_eq_ok_iff.mp hPrepare
  rw [hSweep] at hSweep'
  cases hSweep'
  obtain ⟨sizes, hSizing⟩ := State.sizeLines_eq_ok_iff.mp hSized
  -- The table in front of any line of the emitting pass is that of the sizing pass.
  have hTable : ∀ i before records',
      Walk .exact .emit { sized with counter := 0 } (stream.take i) records' before →
      before.symbols = sized.symbols := by
    intro i before records' hBefore
    have hSplit := hSizing
    rw [← List.take_append_drop i stream] at hSplit hOnce
    exact (Overlay.initial hSizing).symbols_of_walk hSplit hBefore rfl hOnce
  refine ⟨records, Assembly.records_run hPrepare walk (Sink.takes_unlimited records),
    walk.map_line, ?_⟩
  intro record hMem
  obtain ⟨i, hRecord⟩ := List.mem_iff_getElem?.mp hMem
  obtain ⟨before, next, hBefore, hAddress, hStep, _⟩ := walk.step_at hRecord
  obtain ⟨_, hUpTo⟩ := walk.upTo hRecord hBefore hStep
  have hFront := hTable i before _ hBefore
  have hNext := hTable (i + 1) next _ hUpTo
  have hFinal := hTable stream.length final records (by rwa [List.take_length])
  rw [hFinal, ← hFront]
  exact State.resolves_of_step hStep hAddress (hNext.trans hFront.symm)

/-- A program that mentions a label in front of its line and a constant behind it. -/
def forward : Text := "mov r1, r0, data\nror r1\nEQU size, 2\ndata: WORD size, data + 1".toList

def forwardLines : List StreamLine :=
  [⟨1, "mov r1, r0, data".toList⟩, ⟨2, "ror r1".toList⟩, ⟨3, "EQU size, 2".toList⟩,
    ⟨4, "data: WORD size, data + 1".toList⟩]

theorem references_resolve_forward :
    (sweep forward).result = .ok (forwardLines, .empty) ∧ (boundNames forwardLines).Nodup ∧
      ∃ assembly records, (Assembly.run .exact .discard forward).result = .ok assembly ∧
        (Assembly.run .exact (.writer none) forward).records = records ∧
        records.map Record.line = forwardLines ∧
        ∀ record ∈ records, record.Resolves assembly.symbols := by
  have hSweep : (sweep forward).result = .ok (forwardLines, .empty) := by rfl
  have hOnce : (boundNames forwardLines).Nodup := by decide +kernel
  obtain ⟨assembly, hRun⟩ : ∃ assembly,
      (Assembly.run .exact .discard forward).result = .ok assembly :=
    exists_eq_ok (by decide +kernel)
  obtain ⟨records, hResolve⟩ := references_resolve hSweep hOnce hRun
  exact ⟨hSweep, hOnce, assembly, records, hRun, hResolve⟩

end TwoPass
