import TwoPass.Proofs.Assembly.Walk

/-! Line numbers serve messages only. A pass over lines without their numbers does the same as one
over the lines themselves, and its errors differ in nothing but the number. Events are left out
here, since most of them tell a number. -/
namespace TwoPass

def StreamLine.unnumbered (line : StreamLine) : StreamLine := { line with number := 0 }

def Record.unnumbered (record : Record) : Record := { record with line := record.line.unnumbered }

def AssemblyError.unnumbered : AssemblyError → AssemblyError
  | .expression _ text cause => .expression 0 text cause
  | .unknownInstruction _ mnemonic => .unknownInstruction 0 mnemonic
  | .operandCount _ mnemonic count => .operandCount 0 mnemonic count
  | .macroRecursion name limit => .macroRecursion name limit
  | .listing => .listing

/-- What a run leaves behind apart from its events and all line numbers. -/
def Run.unnumbered {α : Type} (run : Run α) : Run α :=
  ⟨[], run.records.map Record.unnumbered, run.listing, run.result.mapError AssemblyError.unnumbered⟩

theorem Run.unnumbered_failed {α : Type} (error : AssemblyError) :
    (failed error.unnumbered : Run α).unnumbered = (failed error).unnumbered := by
  cases error <;> rfl

theorem Run.unnumbered_afterEvents {α : Type} (events : List Event) (run : Run α) :
    (run.afterEvents events).unnumbered = run.unnumbered := rfl

theorem Run.unnumbered_map {α β : Type} (f : α → β) {run other : Run α}
    (h : run.unnumbered = other.unnumbered) :
    (run.map f).unnumbered = (other.map f).unnumbered := by
  obtain ⟨events, records, listing, result⟩ := run
  obtain ⟨events', records', listing', result'⟩ := other
  simp only [unnumbered, Run.mk.injEq, true_and] at h
  obtain ⟨hRecords, rfl, hResult⟩ := h
  simp only [unnumbered, map, hRecords, Run.mk.injEq, true_and]
  cases result with
  | error error =>
      cases result' with
      | error other =>
          rw [mapError_error, mapError_error, Except.error.injEq] at hResult
          show Except.error error.unnumbered = Except.error other.unnumbered
          rw [hResult]
      | ok value => cases hResult
  | ok value =>
      cases result' with
      | error other => cases hResult
      | ok value' =>
          cases hResult
          rfl

theorem Run.unnumbered_afterRecord {α : Type} {run other : Run α} {kept others : List Record}
    (bytes : List UInt8) (hKept : kept.map Record.unnumbered = others.map Record.unnumbered)
    (h : run.unnumbered = other.unnumbered) :
    (run.afterRecord kept bytes).unnumbered = (other.afterRecord others bytes).unnumbered := by
  simp only [unnumbered, Run.mk.injEq, true_and] at h
  obtain ⟨hRecords, hListing, hResult⟩ := h
  simp [unnumbered, afterRecord, hKept, hRecords, hListing, hResult]

/-- Without numbers, lines are told apart by their texts. -/
theorem StreamLine.map_unnumbered (lines : List StreamLine) :
    lines.map unnumbered = (lines.map text).map (StreamLine.mk 0) := by
  rw [List.map_map]
  rfl

namespace State

variable {sizing : Sizing} {pass : Pass} {state : State} {line : StreamLine}
  {lines : List StreamLine} {sink : Sink}

/-- A line as a whole, its failures included. -/
theorem result_step :
    (state.step sizing pass line).result =
      match line.statement with
      | .error malformed => .error (line.malformedError malformed)
      | .ok statement =>
        (statement.perform sizing pass (state.labelled line)).result.mapError
          line.expressionError := by
  have hLabel :
      (state.defineLabel (Line.parse line.text).label : Logged AssemblyError State).result =
        .ok (state.labelled line) := result_defineLabel state line
  simp only [step, Logged.result_bind, Logged.result_tell, hLabel, ok_bind, StreamLine.statement]
  cases (Line.parse line.text).statement <;> rfl

/-- A number shows only in the error of its line. -/
theorem result_step_unnumbered :
    (state.step sizing pass line.unnumbered).result =
      (state.step sizing pass line).result.mapError AssemblyError.unnumbered := by
  have hLabelled : state.labelled line.unnumbered = state.labelled line := rfl
  have hStatement : line.unnumbered.statement = line.statement := rfl
  rw [result_step, result_step, hLabelled, hStatement]
  cases line.statement with
  | error malformed => cases malformed <;> rfl
  | ok statement =>
      dsimp only
      cases (statement.perform sizing pass (state.labelled line)).result <;> rfl

theorem result_sizeLines_unnumbered :
    (state.sizeLines sizing (lines.map StreamLine.unnumbered)).result =
      (state.sizeLines sizing lines).result.mapError AssemblyError.unnumbered := by
  induction lines generalizing state with
  | nil => rfl
  | cons line rest ih =>
      simp only [List.map_cons, sizeLines, Logged.result_bind, result_step_unnumbered]
      cases (state.step sizing .sizing line).result with
      | error error => rfl
      | ok processed => exact ih

/-- The bytes of a record do not show its number, so a sink treats records with and without numbers
alike. -/
theorem unnumbered_emitLines :
    (state.emitLines sizing sink (lines.map StreamLine.unnumbered)).unnumbered =
      (state.emitLines sizing sink lines).unnumbered := by
  induction lines generalizing state sink with
  | nil => rfl
  | cons line rest ih =>
      simp only [List.map_cons, emitLines_cons, Run.unnumbered_afterEvents, result_step_unnumbered]
      cases (state.step sizing .emit line).result with
      | error error => exact Run.unnumbered_failed error
      | ok processed =>
          obtain ⟨next, words⟩ := processed
          simp only [mapError_ok]
          have hBytes : Record.bytes ⟨state.counter, words, line.unnumbered⟩ =
              Record.bytes ⟨state.counter, words, line⟩ := rfl
          rw [hBytes]
          cases (sink.accept (Record.bytes ⟨state.counter, words, line⟩)).2 with
          | none => rfl
          | some later =>
              apply Run.unnumbered_afterRecord _ _ ih
              cases sink <;> rfl

end State

/-- A pass over lines is also one over other lines with the same texts, and leads to the same
state. -/
theorem Walk.renumber {sizing : Sizing} {pass : Pass} {state final : State}
    {lines others : List StreamLine} {records : List Record}
    (walk : Walk sizing pass state lines records final)
    (hTexts : others.map StreamLine.text = lines.map StreamLine.text) :
    ∃ renumbered, Walk sizing pass state others renumbered final ∧
      renumbered.map Record.unnumbered = records.map Record.unnumbered := by
  induction walk generalizing others with
  | nil =>
      rw [List.map_nil, List.map_eq_nil_iff] at hTexts
      subst hTexts
      exact ⟨[], .nil _, rfl⟩
  | @cons state next final line rest words records first _ ih =>
      obtain ⟨other, others, rfl, hText, hTexts⟩ := List.map_eq_cons_iff.mp hTexts
      obtain ⟨renumbered, hWalk, hRecords⟩ := ih hTexts
      have hLine : other.unnumbered = line.unnumbered := by
        rw [StreamLine.unnumbered, StreamLine.unnumbered, hText]
      have hStep : (state.step sizing pass other).result = .ok (next, words) := by
        rw [← mapError_eq_ok_iff, ← State.result_step_unnumbered, hLine,
          State.result_step_unnumbered, first]
        rfl
      refine ⟨_, .cons hStep hWalk, ?_⟩
      rw [List.map_cons, List.map_cons, hRecords]
      simp only [Record.unnumbered, hLine]

namespace Assembly

variable {sizing : Sizing} {sink : Sink} {source other : Text} {stream stream' : List StreamLine}
  {macros macros' : MacroTable}

/-- The part of an assembly that lies behind the sweep. -/
def ofStream (sizing : Sizing) (sink : Sink) (stream : List StreamLine) : Run Assembly :=
  match (State.initial.sizeLines sizing stream).result with
  | .error error => Run.failed error
  | .ok sized =>
    (State.emitLines sizing { sized with counter := 0 } sink stream).map fun final =>
      { symbols := final.symbols, image := final.image }

/-- After the sweep only the stream matters. -/
theorem run_of_sweep (sizing : Sizing) (sink : Sink)
    (h : (sweep source).result = .ok (stream, macros)) :
    ∃ events, run sizing sink source = (ofStream sizing sink stream).afterEvents events := by
  have hPrepare : (prepare sizing source).result =
      (State.initial.sizeLines sizing stream).result >>= fun sized =>
        .ok (stream, { sized with counter := 0 }) := by
    rw [prepare, Logged.result_bind, h, ok_bind]
    simp only [Logged.result_bind, Logged.result_tell, Logged.result_pure, ok_bind]
  rw [run, ofStream]
  rcases hLogged : prepare sizing source with ⟨events, result⟩
  rw [hLogged] at hPrepare
  subst hPrepare
  refine ⟨events, ?_⟩
  cases (State.initial.sizeLines sizing stream).result <;> rfl

/-- Whatever the passes do with a stream, they do without its numbers. -/
theorem unnumbered_ofStream :
    (ofStream sizing sink (stream.map StreamLine.unnumbered)).unnumbered =
      (ofStream sizing sink stream).unnumbered := by
  rw [ofStream, ofStream, State.result_sizeLines_unnumbered]
  cases (State.initial.sizeLines sizing stream).result with
  | error error => exact Run.unnumbered_failed error
  | ok sized => exact Run.unnumbered_map _ State.unnumbered_emitLines

/-- Two sources with the same texts in their streams come out the same, apart from line numbers. -/
theorem unnumbered_run_eq (sizing : Sizing) (sink : Sink)
    (h : (sweep source).result = .ok (stream, macros))
    (hOther : (sweep other).result = .ok (stream', macros'))
    (hTexts : stream.map StreamLine.text = stream'.map StreamLine.text) :
    (run sizing sink source).unnumbered = (run sizing sink other).unnumbered := by
  obtain ⟨events, hRun⟩ := run_of_sweep sizing sink h
  obtain ⟨events', hRun'⟩ := run_of_sweep sizing sink hOther
  calc (run sizing sink source).unnumbered
      = (ofStream sizing sink stream).unnumbered := by rw [hRun, Run.unnumbered_afterEvents]
    _ = (ofStream sizing sink (stream.map StreamLine.unnumbered)).unnumbered :=
        unnumbered_ofStream.symm
    _ = (ofStream sizing sink (stream'.map StreamLine.unnumbered)).unnumbered := by
        rw [StreamLine.map_unnumbered, hTexts, StreamLine.map_unnumbered]
    _ = (ofStream sizing sink stream').unnumbered := unnumbered_ofStream
    _ = (run sizing sink other).unnumbered := by rw [hRun', Run.unnumbered_afterEvents]

end Assembly

end TwoPass
