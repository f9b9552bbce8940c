import TwoPass.Proofs.Assembly.Agreement
import TwoPass.Proofs.Assembly.Delivery
import TwoPass.Proofs.Assembly.Numbering
import TwoPass.Proofs.Expression.Failure

/-! Where errors come from. What a line asks for depends on its text alone, so a malformed line
stops the sizing pass and the emitting pass never meets one. Under exact sizing the emitting pass
also finds a value for every constant and origin, because the sizing pass has found it already.
What is left are the operands, which only the emitting pass evaluates. -/
namespace TwoPass

/-- Whether an error is about the form of a program: its macros, mnemonics, numbers of operands and
the names of its constants. -/
def AssemblyError.isStructural : AssemblyError → Bool
  | .macroRecursion .. | .unknownInstruction .. | .operandCount .. => true
  | .expression _ _ (.notAName _) => true
  | .expression .. | .listing => false

/-- The operands from left to right. -/
def Operands.toList {α : Type} : Operands α → List α
  | .one a => [a]
  | .two a b => [a, b]
  | .three a b c => [a, b, c]

theorem Operands.exists_of_evaluate_eq_error {ε α β : Type} {f : α → Except ε β}
    {operands : Operands α} {e : ε} (h : operands.evaluate f = .error e) :
    ∃ operand ∈ operands.toList, f operand = .error e := by
  cases operands with
  | one a =>
      rcases bind_eq_error_iff.mp h with ha | ⟨_, -, h⟩
      · exact ⟨a, by simp [toList], ha⟩
      · cases h
  | two a b =>
      rcases bind_eq_error_iff.mp h with ha | ⟨_, -, h⟩
      · exact ⟨a, by simp [toList], ha⟩
      rcases bind_eq_error_iff.mp h with hb | ⟨_, -, h⟩
      · exact ⟨b, by simp [toList], hb⟩
      · cases h
  | three a b c =>
      rcases bind_eq_error_iff.mp h with ha | ⟨_, -, h⟩
      · exact ⟨a, by simp [toList], ha⟩
      rcases bind_eq_error_iff.mp h with hb | ⟨_, -, h⟩
      · exact ⟨b, by simp [toList], hb⟩
      rcases bind_eq_error_iff.mp h with hc | ⟨_, -, h⟩
      · exact ⟨c, by simp [toList], hc⟩
      · cases h

namespace Statement

/-- The expressions whose values end up in the words of a statement. Only data and instructions have
such operands; the expressions of constants and origins are none. -/
def operands : Statement → List Text
  | .data expressions => expressions
  | .instruction _ _ operands => operands.toList
  | .blank | .constant .. | .origin .. | .characters .. => []

variable {sizing : Sizing} {pass : Pass} {state : State} {statement : Statement}
  {cause : Expression.Error}

theorem exists_of_words_eq_error (h : (statement.words state).result = .error cause) :
    ∃ operand ∈ statement.operands, state.evaluate operand = .error cause := by
  cases statement with
  | blank | constant | origin | characters => cases h
  | data expressions => exact exists_of_mapM_eq_error h
  | instruction predicate slot operands =>
      rw [words, Logged.result_bind, Logged.result_lift] at h
      rcases bind_eq_error_iff.mp h with hOperands | ⟨values, -, h⟩
      · exact Operands.exists_of_evaluate_eq_error hOperands
      · cases h

/-- Emitting words fails only if one of the operands has no value. -/
theorem exists_of_perform_emit_eq_error (hPlaces : statement.places = true)
    (h : (statement.perform sizing .emit state).result = .error cause) :
    ∃ operand ∈ statement.operands, state.evaluate operand = .error cause := by
  rw [perform_emit_of_places hPlaces] at h
  rcases bind_eq_error_iff.mp h with hWords | ⟨words, -, h⟩
  · exact exists_of_words_eq_error hWords
  · cases h

/-- Whatever fails on a line with a proper statement is the evaluation of an expression. -/
theorem exists_of_perform_eq_error
    (h : (statement.perform sizing pass state).result = .error cause) :
    ∃ expression, state.evaluate expression = .error cause := by
  cases hPlaces : statement.places with
  | true =>
      cases pass with
      | sizing =>
          rw [perform_sizing_of_places hPlaces] at h
          cases h
      | emit =>
          obtain ⟨operand, -, hFails⟩ := exists_of_perform_emit_eq_error hPlaces h
          exact ⟨operand, hFails⟩
  | false =>
      cases statement with
      | blank => cases h
      | constant name expression | origin expression =>
          rw [perform, Logged.result_bind, Logged.result_lift] at h
          rcases bind_eq_error_iff.mp h with hFails | ⟨value, -, h⟩
          · exact ⟨expression, hFails⟩
          · cases h
      | data | characters | instruction => cases hPlaces

end Statement

/-- An expression that is short of a value is no structural error. -/
theorem StreamLine.isStructural_expressionError {line : StreamLine} {state : State}
    {expression : Text} {cause : Expression.Error} (h : state.evaluate expression = .error cause) :
    (line.expressionError cause).isStructural = false := by
  have hNever : Expression.NeverNotAName (state.evaluate expression) :=
    Expression.neverNotAName_evaluateWord state.symbols.get? expression
  cases cause with
  | notAName text => exact absurd h (hNever text)
  | _ => rfl

/-- What the sizing pass has carried out, the emitting pass can fail at in an operand only. -/
theorem Overlay.exists_of_perform_eq_error {sized emitted sized' : State} {statement : Statement}
    {measured : List UInt16} {cause : Expression.Error} (h : Overlay sized emitted)
    (hSized : Performs .exact .sizing sized statement sized' measured)
    (hFails : (statement.perform .exact .emit emitted).result = .error cause) :
    ∃ operand ∈ statement.operands, emitted.evaluate operand = .error cause := by
  cases hSized with
  | blank => cases hFails
  | constant _ hValue | origin _ hValue =>
      rw [Statement.perform, Logged.result_bind, Logged.result_lift, h.evaluate hValue] at hFails
      cases hFails
  | measure hPlaces => exact Statement.exists_of_perform_emit_eq_error hPlaces hFails

namespace State

variable {sizing : Sizing} {state before : State} {sink : Sink} {line : StreamLine}
  {lines : List StreamLine} {error : AssemblyError}

/-- A line with a proper statement fails because of an expression. -/
theorem exists_of_step_eq_error {pass : Pass} {statement : Statement}
    (hStatement : line.statement = .ok statement)
    (h : (state.step sizing pass line).result = .error error) :
    ∃ cause, (statement.perform sizing pass (state.labelled line)).result = .error cause ∧
      error = line.expressionError cause := by
  rw [result_step, hStatement] at h
  dsimp only at h
  cases hPerform : (statement.perform sizing pass (state.labelled line)).result with
  | error cause =>
      rw [hPerform] at h
      cases h
      exact ⟨cause, rfl, rfl⟩
  | ok performed =>
      rw [hPerform] at h
      cases h

/-- An emitting pass that fails, though not for its sink, has come to a line that fails. -/
theorem exists_of_emitLines_eq_error (hError : error ≠ .listing)
    (h : (state.emitLines sizing sink lines).result = .error error) :
    ∃ front line back before, lines = front ++ line :: back ∧
      (state.emitLines sizing sink front).result = .ok before ∧
      (before.step sizing .emit line).result = .error error := by
  induction lines generalizing state sink with
  | nil => cases h
  | cons line rest ih =>
      obtain ⟨failure, hStep, hResult⟩ | ⟨next, words, -, -, hResult⟩ |
          ⟨next, words, later, hStep, hSink, hResult⟩ :=
        @result_emitLines_cons sizing state sink line rest
      · cases hResult.symm.trans h
        exact ⟨[], line, rest, state, rfl, rfl, hStep⟩
      · cases hResult.symm.trans h
        exact absurd rfl hError
      · obtain ⟨front, failing, back, before, rfl, hBefore, hFails⟩ := ih (hResult.symm.trans h)
        refine ⟨line :: front, failing, back, before, rfl, ?_, hFails⟩
        exact (result_emitLines_of_accept hStep hSink).trans hBefore

end State

/-- Every line that a pass gets past has a proper statement. -/
theorem Walk.exists_statement {sizing : Sizing} {pass : Pass} {state final : State}
    {lines : List StreamLine} {records : List Record}
    (walk : Walk sizing pass state lines records final) :
    ∀ line ∈ lines, ∃ statement, line.statement = .ok statement := by
  induction walk with
  | nil => simp
  | cons first others ih =>
      intro line hMem
      rcases List.mem_cons.mp hMem with rfl | hMem
      · obtain ⟨statement, hStatement, -⟩ := State.step_eq_ok_iff.mp first
        exact ⟨statement, hStatement⟩
      · exact ih line hMem

namespace Assembly

variable {sizing : Sizing} {sink : Sink} {source : Text} {stream : List StreamLine} {start : State}
  {error : AssemblyError}

/-- The emitting pass raises no structural error, since it starts only after the sizing pass has got
past every line. -/
theorem isStructural_of_emitLines_eq_error
    (hPrepare : (prepare sizing source).result = .ok (stream, start))
    (h : (start.emitLines sizing sink stream).result = .error error) :
    error.isStructural = false := by
  by_cases hError : error = .listing
  · rw [hError]
    rfl
  obtain ⟨macros, sized, -, hSized, rfl⟩ := prepare_eq_ok_iff.mp hPrepare
  obtain ⟨sizes, walk⟩ := State.sizeLines_eq_ok_iff.mp hSized
  obtain ⟨front, line, back, before, rfl, -, hFails⟩ :=
    State.exists_of_emitLines_eq_error hError h
  obtain ⟨statement, hStatement⟩ := walk.exists_statement line (by simp)
  obtain ⟨cause, hPerform, rfl⟩ := State.exists_of_step_eq_error hStatement hFails
  obtain ⟨expression, hValue⟩ := Statement.exists_of_perform_eq_error hPerform
  exact line.isStructural_expressionError hValue

/-- Under exact sizing the emitting pass fails at an operand or for its sink. -/
theorem exists_operand_of_emitLines_eq_error (hError : error ≠ .listing)
    (hPrepare : (prepare .exact source).result = .ok (stream, start))
    (h : (start.emitLines .exact sink stream).result = .error error) :
    ∃ i line statement operand cause before, stream[i]? = some line ∧
      (start.emitLines .exact sink (stream.take i)).result = .ok before ∧
      line.statement = .ok statement ∧ operand ∈ statement.operands ∧
      (before.labelled line).evaluate operand = .error cause ∧
      error = line.expressionError cause := by
  obtain ⟨macros, sized, -, hSized, rfl⟩ := prepare_eq_ok_iff.mp hPrepare
  obtain ⟨sizes, walk⟩ := State.sizeLines_eq_ok_iff.mp hSized
  obtain ⟨front, line, back, emitted, rfl, hEmitted, hFails⟩ :=
    State.exists_of_emitLines_eq_error hError h
  obtain ⟨records, hFront', -⟩ := State.emitLines_eq_ok_iff.mp hEmitted
  -- Both passes have come to the same line, and the sizing pass gets past it.
  obtain ⟨before, _, _, -, hFront, hBack⟩ := walk.split
  have hOverlay := (Overlay.initial walk).walk hFront hFront'
  cases hBack with
  | cons first others =>
      obtain ⟨statement, hStatement, hPerforms⟩ := State.step_eq_ok_iff.mp first
      obtain ⟨cause, hPerform, rfl⟩ := State.exists_of_step_eq_error hStatement hFails
      obtain ⟨operand, hMem, hValue⟩ :=
        (hOverlay.labelled line).exists_of_perform_eq_error hPerforms hPerform
      exact ⟨front.length, line, statement, operand, cause, emitted, by simp, by simpa using hEmitted,
        hStatement, hMem, hValue, rfl⟩

end Assembly

/-- An assembly that fails. A structural error is raised before the emitting pass starts, so
nothing has been delivered, whatever the sink is. Under exact sizing, an error of an expression
that is raised after the emitting pass has started is that of an operand of data or of an
instruction, in the state in which the pass came to the line. Under compatible sizing it may also
be that of a constant or an origin, whose names then have other values than in the sizing pass. -/
theorem structural_errors_come_first {sizing : Sizing} {sink : Sink} {source : Text}
    {error : AssemblyError} (hRun : (Assembly.run sizing sink source).result = .error error) :
    (error.isStructural = true →
      (Assembly.prepare sizing source).result = .error error ∧
      (Assembly.run sizing sink source).records = [] ∧
      (Assembly.run sizing sink source).listing = []) ∧
    (sizing = .exact → ∀ stream start number text cause,
      (Assembly.prepare sizing source).result = .ok (stream, start) →
      error = .expression number text cause →
      ∃ i line statement operand before, stream[i]? = some line ∧
        (start.emitLines sizing sink (stream.take i)).result = .ok before ∧
        line.statement = .ok statement ∧ operand ∈ statement.operands ∧
        (before.labelled line).evaluate operand = .error cause ∧
        error = line.expressionError cause) := by
  cases hPrepare : (Assembly.prepare sizing source).result with
  | error failure =>
      rw [Assembly.run_of_prepare_error sink hPrepare] at hRun ⊢
      cases hRun
      refine ⟨fun _ => ⟨rfl, rfl, rfl⟩, ?_⟩
      intro _ stream start number text cause hOk
      cases hOk
  | ok prepared =>
      obtain ⟨stream, start⟩ := prepared
      have hEmit : (start.emitLines sizing sink stream).result = .error error := by
        rw [Assembly.run_of_prepare hPrepare] at hRun
        cases hResult : (start.emitLines sizing sink stream).result with
        | error failure => simpa [Run.afterEvents, Run.map, hResult] using hRun
        | ok final => simp [Run.afterEvents, Run.map, hResult] at hRun
      constructor
      · intro hStructural
        rw [Assembly.isStructural_of_emitLines_eq_error hPrepare hEmit] at hStructural
        cases hStructural
      · rintro rfl stream' start' number text cause hOk rfl
        cases hOk
        obtain ⟨i, line, statement, operand, cause', before, hLine, hBefore, hStatement, hMem, hValue,
          hError⟩ := Assembly.exists_operand_of_emitLines_eq_error (by simp) hPrepare hEmit
        have hCause : cause' = cause := by
          cases hError
          rfl
        subst hCause
        exact ⟨i, line, statement, operand, before, hLine, hBefore, hStatement, hMem, hValue, hError⟩

/-- Compatible sizing takes the label of this program for zero. Two lines have been listed when the
constant turns out to have no value. -/
example :
    let run := Assembly.run .compatible (.writer none) "ror r1\na: WORD 0\nEQU b, 1 // (1 - a)".toList
    run.records.length = 2 ∧
      failure? run.result = some (.expression 3 "EQU b, 1 // (1 - a)".toList .zeroDivisor) := by
  decide +kernel

/-- A program whose second line has no known mnemonic. -/
def misspelt : Text := "WORD 1\nbogus r1".toList

/-- A program that divides by a distance which turns out to be zero. -/
def divided : Text := "ORG 2\nWORD 1, 6 // (end - 4)\nend: ror r1".toList

def dividedLines : List StreamLine :=
  [⟨1, "ORG 2".toList⟩, ⟨2, "WORD 1, 6 // (end - 4)".toList⟩, ⟨3, "end: ror r1".toList⟩]

theorem structural_errors_come_first_misspelt_divided :
    ((Assembly.run .compatible (.writer none) misspelt).result =
        .error (.unknownInstruction 2 "bogus".toList) ∧
      (Assembly.run .compatible (.writer none) misspelt).records = []) ∧
    ∃ start i line statement operand before,
      (Assembly.prepare .exact divided).result = .ok (dividedLines, start) ∧
      dividedLines[i]? = some line ∧
      (start.emitLines .exact (.writer none) (dividedLines.take i)).result = .ok before ∧
      line.statement = .ok statement ∧ operand ∈ statement.operands ∧
      (before.labelled line).evaluate operand = .error .zeroDivisor := by
  have hMisspelt : (Assembly.run .compatible (.writer none) misspelt).result =
      .error (.unknownInstruction 2 "bogus".toList) := eq_error_of_failure? (by decide +kernel)
  have hDivided : (Assembly.run .exact (.writer none) divided).result =
      .error (.expression 2 "WORD 1, 6 // (end - 4)".toList .zeroDivisor) :=
    eq_error_of_failure? (by decide +kernel)
  have hSweep : (sweep divided).result = .ok (dividedLines, .empty) := by rfl
  have hSized : (State.initial.sizeLines .exact dividedLines).result =
      .ok ⟨SymbolTable.initial.define "end".toList 4, 5, .empty⟩ := by rfl
  have hPrepare := Assembly.prepare_eq_ok_iff.mpr ⟨_, _, hSweep, hSized, rfl⟩
  obtain ⟨i, line, statement, operand, before, hLine, hBefore, hStatement, hMem, hValue, -⟩ :=
    (structural_errors_come_first hDivided).2 rfl _ _ _ _ _ hPrepare rfl
  exact ⟨⟨hMisspelt, ((structural_errors_come_first hMisspelt).1 rfl).2.1⟩, _, i, line, statement,
    operand, before, hPrepare, hLine, hBefore, hStatement, hMem, hValue⟩

end TwoPass
