import TwoPass.Assembly.Run
import TwoPass.Proofs.Assembly.Step

/-! Whole passes as sequences of steps. A walk is a pass over some lines in which every line is
processed successfully. It keeps what the listing would show of each line, also in the sizing
pass, where the words of every record are missing. -/
namespace TwoPass

/-- A pass over lines from one state to another, with a record for each line. -/
inductive Walk (sizing : Sizing) (pass : Pass) :
    State → List StreamLine → List Record → State → Prop where
  | nil (state : State) : Walk sizing pass state [] [] state
  | cons {state next final : State} {line : StreamLine} {rest : List StreamLine}
      {words : List UInt16} {records : List Record}
      (first : (state.step sizing pass line).result = .ok (next, words))
      (others : Walk sizing pass next rest records final) :
      Walk sizing pass state (line :: rest) (⟨state.counter, words, line⟩ :: records) final

namespace Walk

variable {sizing : Sizing} {pass : Pass} {state final : State} {lines more : List StreamLine}
  {records : List Record}

/-- Each line has its record, in the order of the lines. -/
theorem map_line (walk : Walk sizing pass state lines records final) :
    records.map Record.line = lines := by
  induction walk with
  | nil => rfl
  | cons first others ih => rw [List.map_cons, ih]

theorem append {middle : State} {others : List Record}
    (left : Walk sizing pass state lines records middle)
    (right : Walk sizing pass middle more others final) :
    Walk sizing pass state (lines ++ more) (records ++ others) final := by
  induction left with
  | nil => exact right
  | cons first _ ih => exact .cons first (ih right)

/-- A walk over two blocks of lines passes through a state between them. -/
theorem split (walk : Walk sizing pass state (lines ++ more) records final) :
    ∃ middle early late, records = early ++ late ∧
      Walk sizing pass state lines early middle ∧ Walk sizing pass middle more late final := by
  induction lines generalizing state records with
  | nil => exact ⟨state, [], records, rfl, .nil state, walk⟩
  | cons line rest ih =>
      cases walk with
      | cons first others =>
          obtain ⟨middle, early, late, rfl, hEarly, hLate⟩ := ih others
          exact ⟨middle, _ :: early, late, rfl, .cons first hEarly, hLate⟩

/-- A pass has one outcome. -/
theorem unique {others : List Record} {final' : State}
    (left : Walk sizing pass state lines records final)
    (right : Walk sizing pass state lines others final') : records = others ∧ final = final' := by
  induction left generalizing others with
  | nil =>
      cases right
      exact ⟨rfl, rfl⟩
  | cons first _ ih =>
      cases right with
      | cons first' rest =>
          rw [first] at first'
          cases first'
          obtain ⟨hRecords, hFinal⟩ := ih rest
          exact ⟨by rw [hRecords], hFinal⟩

/-- A record belongs to a step from the state that the lines in front of it lead to. -/
theorem step_at {i : Nat} {record : Record} (walk : Walk sizing pass state lines records final)
    (hRecord : records[i]? = some record) :
    ∃ before next, Walk sizing pass state (lines.take i) (records.take i) before ∧
      record.address = before.counter ∧
      (before.step sizing pass record.line).result = .ok (next, record.words) ∧
      Walk sizing pass next (lines.drop (i + 1)) (records.drop (i + 1)) final := by
  induction walk generalizing i with
  | nil => simp at hRecord
  | @cons state next final line rest words records first others ih =>
      cases i with
      | zero =>
          cases hRecord
          exact ⟨state, next, .nil state, rfl, first, others⟩
      | succ i =>
          obtain ⟨before, after, hBefore, hAddress, hStep, hAfter⟩ := ih hRecord
          exact ⟨before, after, .cons first hBefore, hAddress, hStep, hAfter⟩

/-- The walk up to a record, with the line of the record. -/
theorem upTo {i : Nat} {record : Record} {before next : State}
    (walk : Walk sizing pass state lines records final) (hRecord : records[i]? = some record)
    (hBefore : Walk sizing pass state (lines.take i) (records.take i) before)
    (hStep : (before.step sizing pass record.line).result = .ok (next, record.words)) :
    ∃ early, Walk sizing pass state (lines.take (i + 1)) early next := by
  have hTake : lines.take (i + 1) = lines.take i ++ [record.line] := by
    rw [← walk.map_line, List.take_add_one, List.getElem?_map, hRecord]
    rfl
  rw [hTake]
  exact ⟨_, hBefore.append (.cons hStep (.nil next))⟩

end Walk

namespace State

variable {sizing : Sizing} {state final : State} {lines : List StreamLine}

/-- The sizing pass succeeds exactly when it is a walk. -/
theorem sizeLines_eq_ok_iff :
    (state.sizeLines sizing lines).result = .ok final ↔
      ∃ records, Walk sizing .sizing state lines records final := by
  induction lines generalizing state with
  | nil =>
      constructor
      · intro h
        cases h
        exact ⟨[], .nil _⟩
      · rintro ⟨records, walk⟩
        cases walk
        rfl
  | cons line rest ih =>
      rw [sizeLines, Logged.result_bind, bind_eq_ok_iff]
      constructor
      · rintro ⟨⟨next, words⟩, hStep, hRest⟩
        obtain ⟨records, walk⟩ := ih.mp hRest
        exact ⟨_, .cons hStep walk⟩
      · rintro ⟨records, walk⟩
        cases walk with
        | @cons _ next _ _ _ words records first others =>
            exact ⟨(next, words), first, ih.mpr ⟨records, others⟩⟩

end State

namespace Sink

/-- Whether a sink takes all of the records in full, one after the other. -/
def takes : Sink → List Record → Bool
  | _, [] => true
  | sink, record :: rest =>
    match (sink.accept record.bytes).2 with
    | none => false
    | some next => next.takes rest

/-- The records that are kept of those that were taken in full. -/
def keptOf : Sink → List Record → List Record
  | .discard, _ => []
  | .writer _, records => records

/-- A writer without a limit never fails. -/
theorem takes_unlimited (records : List Record) : (Sink.writer none).takes records = true := by
  induction records with
  | nil => rfl
  | cons record rest ih => exact ih

/-- A sink that takes records takes the first ones of them. -/
theorem takes_take {sink : Sink} {records : List Record} (h : sink.takes records = true)
    (count : Nat) : sink.takes (records.take count) = true := by
  induction records generalizing sink count with
  | nil => simpa using h
  | cons record rest ih =>
      cases count with
      | zero => rfl
      | succ count =>
          rw [takes] at h
          rw [List.take_succ_cons, takes]
          cases hAccept : (sink.accept record.bytes).2 with
          | none => simp [hAccept] at h
          | some next =>
              rw [hAccept] at h
              exact ih h count

/-- A sink that takes a record keeps the records after it or drops them as before. -/
theorem kept_append_keptOf {sink next : Sink} {record : Record} (records : List Record)
    (h : (sink.accept record.bytes).2 = some next) :
    sink.kept record ++ next.keptOf records = sink.keptOf (record :: records) := by
  cases sink with
  | discard =>
      cases h
      rfl
  | writer room =>
      cases room with
      | none =>
          cases h
          rfl
      | some room =>
          rw [accept] at h
          split at h
          · cases h
            rfl
          · cases h

end Sink

namespace State

variable {sizing : Sizing} {state next final : State} {sink : Sink} {line : StreamLine}
  {lines rest : List StreamLine} {words : List UInt16} {records : List Record}

/-- The emitting pass over one more line, its three outcomes apart: the line fails, its record is
refused, or the pass goes on. -/
theorem emitLines_cons :
    state.emitLines sizing sink (line :: rest) =
      (match (state.step sizing .emit line).result with
        | .error error => Run.failed error
        | .ok (next, words) =>
          match (sink.accept (Record.bytes ⟨state.counter, words, line⟩)).2 with
          | none =>
            (Run.failed .listing).afterRecord []
              (sink.accept (Record.bytes ⟨state.counter, words, line⟩)).1
          | some later =>
            (next.emitLines sizing later rest).afterRecord
              (sink.kept ⟨state.counter, words, line⟩)
              (sink.accept (Record.bytes ⟨state.counter, words, line⟩)).1).afterEvents
        (state.step sizing .emit line).events := by
  rw [emitLines]
  rcases state.step sizing .emit line with ⟨events, result⟩
  cases result with
  | error error => rfl
  | ok processed =>
      obtain ⟨next, words⟩ := processed
      dsimp only
      rcases sink.accept (Record.bytes ⟨state.counter, words, line⟩) with ⟨written, taken⟩
      cases taken <;> rfl

/-- What the emitting pass over one more line comes to: the line's failure, that of the listing, or
what the pass comes to over the other lines. -/
theorem result_emitLines_cons :
    (∃ error, (state.step sizing .emit line).result = .error error ∧
      (state.emitLines sizing sink (line :: rest)).result = .error error) ∨
    (∃ next words, (state.step sizing .emit line).result = .ok (next, words) ∧
      (sink.accept (Record.bytes ⟨state.counter, words, line⟩)).2 = none ∧
      (state.emitLines sizing sink (line :: rest)).result = .error .listing) ∨
    ∃ next words later, (state.step sizing .emit line).result = .ok (next, words) ∧
      (sink.accept (Record.bytes ⟨state.counter, words, line⟩)).2 = some later ∧
      (state.emitLines sizing sink (line :: rest)).result =
        (next.emitLines sizing later rest).result := by
  rw [emitLines_cons]
  cases (state.step sizing .emit line).result with
  | error error => exact .inl ⟨error, rfl, rfl⟩
  | ok processed =>
      obtain ⟨next, words⟩ := processed
      dsimp only
      cases hSink : (sink.accept (Record.bytes ⟨state.counter, words, line⟩)).2 with
      | none => exact .inr (.inl ⟨next, words, rfl, hSink, rfl⟩)
      | some later => exact .inr (.inr ⟨next, words, later, rfl, hSink, rfl⟩)

/-- The pass goes on behind a line that succeeds and whose record is taken. -/
theorem result_emitLines_of_accept {later : Sink}
    (hStep : (state.step sizing .emit line).result = .ok (next, words))
    (hSink : (sink.accept (Record.bytes ⟨state.counter, words, line⟩)).2 = some later) :
    (state.emitLines sizing sink (line :: rest)).result =
      (next.emitLines sizing later rest).result := by
  rw [emitLines_cons, hStep]
  dsimp only
  rw [hSink]
  rfl

/-- The emitting pass succeeds exactly when it is a walk whose records the sink takes. -/
theorem emitLines_eq_ok_iff :
    (state.emitLines sizing sink lines).result = .ok final ↔
      ∃ records, Walk sizing .emit state lines records final ∧ sink.takes records = true := by
  induction lines generalizing state sink with
  | nil =>
      constructor
      · intro h
        cases h
        exact ⟨[], .nil _, rfl⟩
      · rintro ⟨records, walk, _⟩
        cases walk
        rfl
  | cons line rest ih =>
      constructor
      · intro h
        obtain ⟨error, -, hResult⟩ | ⟨next, words, -, -, hResult⟩ |
            ⟨next, words, later, hStep, hSink, hResult⟩ :=
          @result_emitLines_cons sizing state sink line rest
        · cases hResult.symm.trans h
        · cases hResult.symm.trans h
        · obtain ⟨records, walk, hTakes⟩ := ih.mp (hResult.symm.trans h)
          exact ⟨_, .cons hStep walk, by simpa [Sink.takes, hSink] using hTakes⟩
      · rintro ⟨records, walk, hTakes⟩
        cases walk with
        | @cons _ next _ _ _ words others first walk =>
            rw [Sink.takes] at hTakes
            cases hSink : (sink.accept (Record.bytes ⟨state.counter, words, line⟩)).2 with
            | none => simp [hSink] at hTakes
            | some later =>
                rw [hSink] at hTakes
                rw [result_emitLines_of_accept first hSink]
                exact ih.mpr ⟨others, walk, hTakes⟩

/-- What is kept of a walk's records does not depend on anything but the kind of the sink. -/
theorem records_emitLines (walk : Walk sizing .emit state lines records final)
    (hTakes : sink.takes records = true) :
    (state.emitLines sizing sink lines).records = sink.keptOf records := by
  induction walk generalizing sink with
  | nil => cases sink <;> rfl
  | @cons state next final line rest words records first others ih =>
      rw [emitLines_cons, first]
      dsimp only
      rw [Sink.takes] at hTakes
      cases hSink : (sink.accept (Record.bytes ⟨state.counter, words, line⟩)).2 with
      | none => simp [hSink] at hTakes
      | some later =>
          rw [hSink] at hTakes
          rw [← Sink.kept_append_keptOf records hSink, ← ih hTakes]
          rfl

end State

namespace Assembly

variable {sizing : Sizing} {sink : Sink} {source : Text} {stream : List StreamLine}
  {start : State} {assembly : Assembly}

/-- The emitting pass begins where the sizing pass has ended, with the counter set back. -/
theorem prepare_eq_ok_iff :
    (prepare sizing source).result = .ok (stream, start) ↔
      ∃ macros sized, (sweep source).result = .ok (stream, macros) ∧
        (State.initial.sizeLines sizing stream).result = .ok sized ∧
        start = { sized with counter := 0 } := by
  rw [prepare, Logged.result_bind, bind_eq_ok_iff]
  simp only [Logged.result_bind, Logged.result_tell, bind_eq_ok_iff]
  constructor
  · rintro ⟨⟨swept, macros⟩, hSweep, _, _, sized, hSized, h⟩
    cases h
    exact ⟨macros, sized, hSweep, hSized, rfl⟩
  · rintro ⟨macros, sized, hSweep, hSized, rfl⟩
    exact ⟨(stream, macros), hSweep, (), trivial, sized, hSized, rfl⟩

theorem run_of_prepare (h : (prepare sizing source).result = .ok (stream, start)) :
    run sizing sink source =
      ((start.emitLines sizing sink stream).map fun final =>
        { symbols := final.symbols, image := final.image }).afterEvents
          (prepare sizing source).events := by
  rw [run]
  rcases hLogged : prepare sizing source with ⟨events, result⟩
  rw [hLogged] at h
  cases h
  rfl

/-- An assembly succeeds exactly when sweep and sizing pass do and the emitting pass is a walk
whose records the sink takes. -/
theorem run_eq_ok_iff :
    (run sizing sink source).result = .ok assembly ↔
      ∃ stream start final records, (prepare sizing source).result = .ok (stream, start) ∧
        Walk sizing .emit start stream records final ∧ sink.takes records = true ∧
        assembly = ⟨final.symbols, final.image⟩ := by
  constructor
  · intro h
    cases hPrepare : (prepare sizing source).result with
    | error error =>
        rw [run] at h
        rcases hLogged : prepare sizing source with ⟨events, result⟩
        rw [hLogged] at h hPrepare
        cases hPrepare
        cases h
    | ok prepared =>
        obtain ⟨stream, start⟩ := prepared
        rw [run_of_prepare hPrepare] at h
        cases hEmit : (start.emitLines sizing sink stream).result with
        | error error => simp [Run.afterEvents, Run.map, hEmit] at h
        | ok final =>
            obtain ⟨records, walk, hTakes⟩ := State.emitLines_eq_ok_iff.mp hEmit
            refine ⟨stream, start, final, records, rfl, walk, hTakes, ?_⟩
            simpa [Run.afterEvents, Run.map, hEmit] using h.symm
  · rintro ⟨stream, start, final, records, hPrepare, walk, hTakes, rfl⟩
    have hEmit := State.emitLines_eq_ok_iff.mpr ⟨records, walk, hTakes⟩
    rw [run_of_prepare hPrepare]
    simp [Run.afterEvents, Run.map, hEmit]

theorem records_run {final : State} {records : List Record}
    (hPrepare : (prepare sizing source).result = .ok (stream, start))
    (walk : Walk sizing .emit start stream records final) (hTakes : sink.takes records = true) :
    (run sizing sink source).records = sink.keptOf records := by
  rw [run_of_prepare hPrepare]
  exact State.records_emitLines walk hTakes

end Assembly

end TwoPass
