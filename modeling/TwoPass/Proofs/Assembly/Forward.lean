import TwoPass.Proofs.Assembly.Blame
import TwoPass.Proofs.Assembly.Rebinding

/-! How far the choice of a sizing can matter. The two sizings start the emitting pass with
different tables, and the emitting pass replaces the values of a table as it goes. So what is left
of the choice is seen only by an operand that mentions a name before the pass has come to bind
it. -/
namespace TwoPass

/-- Whether an expression mentions registers and names that lines bind, and nothing else. -/
def RefersBack (lines : List StreamLine) (expression : Text) : Prop :=
  ∀ name ∈ Expression.mentioned expression,
    SymbolTable.isReserved name = true ∨ name ∈ boundNames lines

instance (lines : List StreamLine) (expression : Text) : Decidable (RefersBack lines expression) :=
  inferInstanceAs (Decidable (∀ name ∈ Expression.mentioned expression,
    SymbolTable.isReserved name = true ∨ name ∈ boundNames lines))

theorem Operands.evaluate_congr {ε α β : Type} {f g : α → Except ε β} {operands : Operands α}
    (h : ∀ operand ∈ operands.toList, f operand = g operand) :
    operands.evaluate f = operands.evaluate g := by
  cases operands <;> simp_all [toList, evaluate]

namespace Statement

variable {state other : State} {statement : Statement}

/-- Only the operands of a statement have an influence on its words. -/
theorem words_congr
    (h : ∀ operand ∈ statement.operands, other.evaluate operand = state.evaluate operand) :
    statement.words other = statement.words state := by
  cases statement with
  | blank | constant | origin | characters => rfl
  | data expressions => exact congrArg Logged.lift (mapM_congr h)
  | instruction predicate slot operands => rw [words, words, Operands.evaluate_congr h]

theorem places_of_mem_operands {operand : Text} (h : operand ∈ statement.operands) :
    statement.places = true := by
  cases statement with
  | blank | constant | origin | characters => simp [operands] at h
  | data | instruction => rfl

end Statement

namespace State

variable {sizing : Sizing} {state next : State} {line : StreamLine} {statement : Statement}
  {words : List UInt16}

theorem words_of_step (h : (state.step sizing .emit line).result = .ok (next, words))
    (hStatement : line.statement = .ok statement) :
    (statement.words (state.labelled line)).result = .ok words := by
  obtain ⟨statement', hParsed, hPerforms⟩ := step_eq_ok_iff.mp h
  rw [hStatement] at hParsed
  cases hParsed
  cases hPerforms with
  | blank | constant | origin => rfl
  | write _ hWords => exact hWords

/-- Operands see the table that a line leaves behind. -/
theorem evaluate_labelled_of_places (h : (state.step sizing .emit line).result = .ok (next, words))
    (hStatement : line.statement = .ok statement) (hPlaces : statement.places = true) :
    (state.labelled line).evaluate = next.evaluate := by
  obtain ⟨statement', hParsed, hPerforms⟩ := step_eq_ok_iff.mp h
  rw [hStatement] at hParsed
  cases hParsed
  obtain ⟨-, rfl⟩ := hPerforms.of_emit hPlaces
  rfl

end State

namespace Settled

variable {sizing sizing₁ sizing₂ : Sizing} {sized emitted other emitted' other' : State}
  {lines : List StreamLine} {sizes records others : List Record}

/-- Emitting passes agree on what an expression means that refers to lines behind them. -/
theorem evaluate_eq {expression : Text} (hStart : Comparable emitted other)
    (hSized : Walk sizing .sizing .initial lines sizes sized)
    (hEmitted : Walk sizing₁ .emit emitted lines records emitted')
    (hOther : Walk sizing₂ .emit other lines others other') (hBack : RefersBack lines expression) :
    other'.evaluate expression = emitted'.evaluate expression := by
  apply Expression.evaluateWord_congr
  intro name hMem
  exact get?_eq hStart hSized hEmitted hOther (hBack name hMem)

/-- The two records of a line. Operands see the label of their own line, so a reference to this line
is not a forward one. -/
theorem words_eq {i : Nat} {record record' : Record} (hStart : Comparable emitted other)
    (hSized : Walk sizing .sizing .initial lines sizes sized)
    (hEmitted : Walk sizing₁ .emit emitted lines records emitted')
    (hOther : Walk sizing₂ .emit other lines others other')
    (hRecord : records[i]? = some record) (hRecord' : others[i]? = some record') :
    ∃ before before' statement,
      Walk sizing₁ .emit emitted (lines.take i) (records.take i) before ∧
      Walk sizing₂ .emit other (lines.take i) (others.take i) before' ∧
      record.line.statement = .ok statement ∧
      (∀ operand ∈ statement.operands, RefersBack (lines.take (i + 1)) operand →
        (before'.labelled record.line).evaluate operand =
          (before.labelled record.line).evaluate operand) ∧
      ((∀ operand ∈ statement.operands, RefersBack (lines.take (i + 1)) operand) →
        record'.words = record.words) := by
  obtain ⟨before, next, hBefore, -, hStep, -⟩ := hEmitted.step_at hRecord
  obtain ⟨before', next', hBefore', -, hStep', -⟩ := hOther.step_at hRecord'
  obtain ⟨early, hNext⟩ := hEmitted.upTo hRecord hBefore hStep
  obtain ⟨early', hNext'⟩ := hOther.upTo hRecord' hBefore' hStep'
  have hSplit := hSized
  rw [← List.take_append_drop (i + 1) lines] at hSplit
  obtain ⟨middle, _, _, -, hMiddle, -⟩ := hSplit.split
  have hLine : record'.line = record.line := by
    have hLines : others.map Record.line = records.map Record.line :=
      hOther.map_line.trans hEmitted.map_line.symm
    have hAt := congrArg (·[i]?) hLines
    simpa [hRecord, hRecord'] using hAt
  rw [hLine] at hStep'
  obtain ⟨statement, hStatement, -⟩ := State.step_eq_ok_iff.mp hStep
  have hOperands : ∀ operand ∈ statement.operands, RefersBack (lines.take (i + 1)) operand →
      (before'.labelled record.line).evaluate operand =
        (before.labelled record.line).evaluate operand := by
    intro operand hMem hBack
    have hPlaces := Statement.places_of_mem_operands hMem
    rw [State.evaluate_labelled_of_places hStep hStatement hPlaces,
      State.evaluate_labelled_of_places hStep' hStatement hPlaces]
    exact evaluate_eq hStart hMiddle hNext hNext' hBack
  refine ⟨before, before', statement, hBefore, hBefore', hStatement, hOperands, ?_⟩
  intro hBack
  have hWords := State.words_of_step hStep hStatement
  have hWords' := State.words_of_step hStep' hStatement
  rw [Statement.words_congr fun operand hMem => hOperands operand hMem (hBack operand hMem),
    hWords] at hWords'
  exact (Except.ok.inj hWords').symm

/-- Two emitting passes over a whole stream end with the same table, whichever measures they are
based on. -/
theorem symbols_eq {sized₁ sized₂ : State} {sizes₁ sizes₂ : List Record}
    (hSized₁ : Walk sizing₁ .sizing .initial lines sizes₁ sized₁)
    (hSized₂ : Walk sizing₂ .sizing .initial lines sizes₂ sized₂)
    (hEmitted : Walk sizing₁ .emit { sized₁ with counter := 0 } lines records emitted')
    (hOther : Walk sizing₂ .emit { sized₂ with counter := 0 } lines others other') :
    other'.symbols = emitted'.symbols := by
  have hNames : other'.symbols.names = emitted'.symbols.names := by
    rw [hSized₁.names_twice hEmitted, hSized₂.names_twice hOther]
  apply SymbolTable.eq_of_names_eq hNames
  · exact hOther.nodup_names (hSized₂.nodup_names SymbolTable.nodup_names_initial)
  · intro name
    have hStart := hSized₁.hasRegisters.comparable hSized₂.hasRegisters rfl
    by_cases hName : SymbolTable.isReserved name = true ∨ name ∈ boundNames lines
    · exact get?_eq hStart hSized₁ hEmitted hOther hName
    · -- A name that is neither a register nor bound by any line is in neither table.
      have hAbsent : name ∉ emitted'.symbols.names := by
        rw [hSized₁.names_twice hEmitted, List.mem_append, List.mem_eraseDups]
        rintro (hSeeded | hBound)
        · exact hName (.inl (SymbolTable.isReserved_of_mem_names_initial name hSeeded))
        · exact hName (.inr hBound)
      have hAbsent' := hAbsent
      rw [← hNames] at hAbsent'
      rw [SymbolTable.mem_names_iff, Option.not_isSome_iff_eq_none] at hAbsent hAbsent'
      rw [hAbsent, hAbsent']

end Settled

/-- What the choice of a sizing can change. If a program assembles under both, the tables of the
results are the same, and so are the addresses and the numbers of words on every line. An operand
that mentions only registers and names bound on its own line or in front of it has the same value,
and a line with only such operands has the same words. Nothing is asked of constants and origins:
they could not be evaluated in the sizing pass if they referred forward. -/
theorem sizings_differ_in_forward_operands {source : Text} {sink sink' : Sink}
    {compatible exact : Assembly}
    (hCompatible : (Assembly.run .compatible sink source).result = .ok compatible)
    (hExact : (Assembly.run .exact sink' source).result = .ok exact) :
    exact.symbols = compatible.symbols ∧
    ∃ stream start start' records others,
      (Assembly.prepare .compatible source).result = .ok (stream, start) ∧
      (Assembly.prepare .exact source).result = .ok (stream, start') ∧
      (Assembly.run .compatible (.writer none) source).records = records ∧
      (Assembly.run .exact (.writer none) source).records = others ∧
      records.map Record.line = stream ∧
      others.map Record.extent = records.map Record.extent ∧
      ∀ i record record', records[i]? = some record → others[i]? = some record' →
        ∃ before before' statement,
          (start.emitLines .compatible (.writer none) (stream.take i)).result = .ok before ∧
          (start'.emitLines .exact (.writer none) (stream.take i)).result = .ok before' ∧
          record.line.statement = .ok statement ∧
          (∀ operand ∈ statement.operands, RefersBack (stream.take (i + 1)) operand →
            (before'.labelled record.line).evaluate operand =
              (before.labelled record.line).evaluate operand) ∧
          ((∀ operand ∈ statement.operands, RefersBack (stream.take (i + 1)) operand) →
            record'.words = record.words) := by
  obtain ⟨stream, start, final, records, hPrepare, walk, -, rfl⟩ :=
    Assembly.run_eq_ok_iff.mp hCompatible
  obtain ⟨stream', start', final', others, hPrepare', walk', -, rfl⟩ :=
    Assembly.run_eq_ok_iff.mp hExact
  obtain ⟨macros, sized, hSweep, hSized, rfl⟩ := Assembly.prepare_eq_ok_iff.mp hPrepare
  obtain ⟨macros', sized', hSweep', hSized', rfl⟩ := Assembly.prepare_eq_ok_iff.mp hPrepare'
  rw [hSweep] at hSweep'
  cases hSweep'
  obtain ⟨sizes, hSizing⟩ := State.sizeLines_eq_ok_iff.mp hSized
  obtain ⟨sizes', hSizing'⟩ := State.sizeLines_eq_ok_iff.mp hSized'
  have hStart := hSizing.hasRegisters.comparable hSizing'.hasRegisters rfl
  refine ⟨Settled.symbols_eq hSizing hSizing' walk walk', stream, _, _, records, others, hPrepare,
    hPrepare', Assembly.records_run hPrepare walk (Sink.takes_unlimited records),
    Assembly.records_run hPrepare' walk' (Sink.takes_unlimited others), walk.map_line, ?_, ?_⟩
  · exact ((Settled.initial hStart).walk hSizing walk walk').2
  · intro i record record' hRecord hRecord'
    obtain ⟨before, before', statement, hBefore, hBefore', hRest⟩ :=
      Settled.words_eq hStart hSizing walk walk' hRecord hRecord'
    refine ⟨before, before', statement, ?_, ?_, hRest⟩
    · exact State.emitLines_eq_ok_iff.mpr ⟨_, hBefore, Sink.takes_unlimited _⟩
    · exact State.emitLines_eq_ok_iff.mpr ⟨_, hBefore', Sink.takes_unlimited _⟩

/-- A program whose third line refers back to the first label `x` and forward to the label `end`. -/
def straddling : Text :=
  "x: WORD x + 7\nror r1\nWORD x, end\nx: WORD x, r3\nend: add r1, end".toList

def straddlingLines : List StreamLine :=
  [⟨1, "x: WORD x + 7".toList⟩, ⟨2, "ror r1".toList⟩, ⟨3, "WORD x, end".toList⟩,
    ⟨4, "x: WORD x, r3".toList⟩, ⟨5, "end: add r1, end".toList⟩]

/-- The forward operand is one less under compatible sizing. The line behind it binds `x` again and
has the same words in both listings. -/
theorem sizings_differ_in_forward_operands_straddling :
    ∃ compatible exact,
      (Assembly.run .compatible .discard straddling).result = .ok compatible ∧
      (Assembly.run .exact .discard straddling).result = .ok exact ∧
      (Assembly.run .compatible (.writer none) straddling).records[2]? =
        some ⟨2, [0, 5], ⟨3, "WORD x, end".toList⟩⟩ ∧
      (Assembly.run .exact (.writer none) straddling).records[2]? =
        some ⟨2, [0, 6], ⟨3, "WORD x, end".toList⟩⟩ ∧
      (Assembly.run .compatible (.writer none) straddling).records[3]? =
        some ⟨4, [4, 3], ⟨4, "x: WORD x, r3".toList⟩⟩ ∧
      exact.symbols = compatible.symbols ∧
      ∃ record, (Assembly.run .exact (.writer none) straddling).records[3]? = some record ∧
        record.words = [4, 3] := by
  obtain ⟨compatible, hCompatible⟩ :
      ∃ compatible, (Assembly.run .compatible .discard straddling).result = .ok compatible :=
    exists_eq_ok (by decide +kernel)
  obtain ⟨exact, hExact⟩ :
      ∃ exact, (Assembly.run .exact .discard straddling).result = .ok exact :=
    exists_eq_ok (by decide +kernel)
  obtain ⟨hSymbols, stream, _, _, records, others, -, -, rfl, rfl, hLines, -, hAt⟩ :=
    sizings_differ_in_forward_operands hCompatible hExact
  have hStream : (Assembly.run .compatible (.writer none) straddling).records.map Record.line =
      straddlingLines := by decide +kernel
  rw [hStream] at hLines
  subst hLines
  have hRecord : (Assembly.run .compatible (.writer none) straddling).records[3]? =
      some ⟨4, [4, 3], ⟨4, "x: WORD x, r3".toList⟩⟩ := by decide +kernel
  obtain ⟨record, hRecord'⟩ :
      ∃ record, (Assembly.run .exact (.writer none) straddling).records[3]? = some record :=
    Option.isSome_iff_exists.mp (by decide +kernel)
  obtain ⟨_, _, statement, -, -, hStatement, -, hWords⟩ := hAt 3 _ record hRecord hRecord'
  have hOperands : statement.operands = ["x".toList, "r3".toList] := by
    have hParsed : (StreamLine.statement ⟨4, "x: WORD x, r3".toList⟩).toOption.map
        Statement.operands = some ["x".toList, "r3".toList] := by decide +kernel
    rw [hStatement] at hParsed
    exact Option.some.inj hParsed
  refine ⟨compatible, exact, hCompatible, hExact, by decide +kernel, by decide +kernel, hRecord,
    hSymbols, record, hRecord', hWords ?_⟩
  rw [hOperands]
  decide +kernel

end TwoPass
