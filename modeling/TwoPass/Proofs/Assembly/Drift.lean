import TwoPass.Proofs.Assembly.Listing
import TwoPass.Proofs.Assembly.Sizing

/-! How far the passes come apart under compatible sizing. The emitting pass runs ahead of the
sizing pass by one word for each instruction with a single operand, until an origin brings the
two together again. Symbols may well have different values in the two passes; this matters only
where an origin mentions them. -/
namespace TwoPass

def StreamLine.isOrigin (line : StreamLine) : Bool :=
  match line.statement with
  | .ok (.origin _) => true
  | _ => false

theorem StreamLine.isOrigin_iff {line : StreamLine} :
    line.isOrigin = true ↔ ∃ expression, line.statement = .ok (.origin expression) := by
  unfold isOrigin
  split
  · simp_all
  · simp_all

/-- How many lines behind the last origin, or behind the start if there is none, are instructions
with a single operand. -/
def oneOperandsSinceOrigin (lines : List StreamLine) : Nat :=
  (lines.reverse.takeWhile fun line => !line.isOrigin).countP StreamLine.hasOneOperand

theorem oneOperandsSinceOrigin_concat (lines : List StreamLine) (line : StreamLine) :
    oneOperandsSinceOrigin (lines ++ [line]) =
      if line.isOrigin = true then 0
      else oneOperandsSinceOrigin lines + if line.hasOneOperand = true then 1 else 0 := by
  cases h : line.isOrigin <;> simp [oneOperandsSinceOrigin, List.countP_cons, h]

/-- The measure by which a pass gets ahead. The emitting pass is exact under either sizing. -/
def Pass.measure (sizing : Sizing) : Pass → Sizing
  | .sizing => sizing
  | .emit => .exact

namespace State

variable {sized emitted sized' emitted' : State} {line : StreamLine} {words measured : List UInt16}

theorem counter_of_plain_step {sizing : Sizing} {pass : Pass} {state next : State}
    {statement : Statement} (h : (state.step sizing pass line).result = .ok (next, words))
    (hStatement : line.statement = .ok statement) (hOrigin : line.isOrigin = false) :
    next.counter = state.counter + .ofNat (statement.size (pass.measure sizing)) := by
  obtain ⟨statement', hParsed, hPerforms⟩ := step_eq_ok_iff.mp h
  rw [hStatement] at hParsed
  cases hParsed
  cases hPerforms with
  | blank | constant => simp [Statement.size]
  | origin => simp [StreamLine.isOrigin, hStatement] at hOrigin
  | measure => simp [Pass.measure]
  | write _ hWords => simp [Pass.measure, Statement.length_words hWords]

/-- One line of both passes. An origin brings them together, an instruction with a single operand
moves them one word further apart, and every other line leaves their distance as it is. -/
theorem drift_of_step {distance : Nat}
    (hSized : (sized.step .compatible .sizing line).result = .ok (sized', measured))
    (hEmitted : (emitted.step .compatible .emit line).result = .ok (emitted', words))
    (hDistance : emitted.counter = sized.counter + .ofNat distance)
    (hOrigin : ∀ expression, line.statement = .ok (.origin expression) →
      (sized.labelled line).evaluate expression = (emitted.labelled line).evaluate expression) :
    emitted'.counter = sized'.counter + .ofNat
      (if line.isOrigin = true then 0
      else distance + if line.hasOneOperand = true then 1 else 0) := by
  cases hLine : line.isOrigin with
  | true =>
      obtain ⟨expression, hStatement⟩ := line.isOrigin_iff.mp hLine
      obtain ⟨value, hValue, hCounter⟩ := counter_of_origin hSized hStatement
      obtain ⟨value', hValue', hCounter'⟩ := counter_of_origin hEmitted hStatement
      rw [← hOrigin expression hStatement, hValue] at hValue'
      cases hValue'
      simp [hCounter, hCounter']
  | false =>
      obtain ⟨statement, hStatement, _⟩ := step_eq_ok_iff.mp hSized
      have hSize := line.size_exact hStatement
      have hSizedCounter := counter_of_plain_step hSized hStatement hLine
      have hEmittedCounter := counter_of_plain_step hEmitted hStatement hLine
      simp only [Bool.false_eq_true, if_false]
      simp only [Pass.measure] at hSizedCounter hEmittedCounter
      rw [hEmittedCounter, hSizedCounter, hDistance, hSize, UInt32.ofNat_add, UInt32.ofNat_add]
      ac_rfl

end State

/-- The distance of two passes over the same lines that begin at the same counter. -/
theorem Walk.drift {sized emitted sized' emitted' : State} {lines : List StreamLine}
    {sizes records : List Record} (hSized : Walk .compatible .sizing sized lines sizes sized')
    (hEmitted : Walk .compatible .emit emitted lines records emitted')
    (hStart : emitted.counter = sized.counter)
    (hOrigins : ∀ front line back, lines = front ++ line :: back →
      ∀ expression early late before before', line.statement = .ok (.origin expression) →
        Walk .compatible .sizing sized front early before →
        Walk .compatible .emit emitted front late before' →
        (before.labelled line).evaluate expression = (before'.labelled line).evaluate expression) :
    emitted'.counter = sized'.counter + .ofNat (oneOperandsSinceOrigin lines) := by
  -- Origins look back, so the induction takes lines off at the end.
  induction lines using List.reverseRecOn generalizing sizes records sized' emitted' with
  | nil =>
      cases hSized
      cases hEmitted
      exact hStart.trans (UInt32.add_zero _).symm
  | append_singleton front line ih =>
      obtain ⟨before, early, _, -, hFront, hLast⟩ := hSized.split
      obtain ⟨before', late, _, -, hFront', hLast'⟩ := hEmitted.split
      cases hLast with
      | cons hStep hNil =>
          cases hNil
          cases hLast' with
          | cons hStep' hNil' =>
              cases hNil'
              have hDistance := ih hFront hFront' fun start line' back hSplit =>
                hOrigins start line' (back ++ [line]) (by simp [hSplit])
              rw [oneOperandsSinceOrigin_concat]
              apply State.drift_of_step hStep hStep' hDistance
              intro expression hStatement
              exact hOrigins front line [] rfl expression early late before before' hStatement
                hFront hFront'

/-- The exact distance of the passes under compatible sizing, in front of any line. Both passes
get through, and no origin has different values in them. The counters wrap around at thirty-two
bits, and so does their distance. -/
theorem compatible_drift {source : Text} {stream : List StreamLine} {start final : State}
    {sink : Sink} (hPrepare : (Assembly.prepare .compatible source).result = .ok (stream, start))
    (hEmit : (start.emitLines .compatible sink stream).result = .ok final)
    (hOrigins : ∀ i line expression sized emitted, stream[i]? = some line →
      line.statement = .ok (.origin expression) →
      (State.initial.sizeLines .compatible (stream.take i)).result = .ok sized →
      (start.emitLines .compatible sink (stream.take i)).result = .ok emitted →
      (sized.labelled line).evaluate expression = (emitted.labelled line).evaluate expression)
    (i : Nat) :
    ∃ sized emitted, (State.initial.sizeLines .compatible (stream.take i)).result = .ok sized ∧
      (start.emitLines .compatible sink (stream.take i)).result = .ok emitted ∧
      emitted.counter.toNat =
        (sized.counter.toNat + oneOperandsSinceOrigin (stream.take i)) % 2 ^ 32 := by
  obtain ⟨macros, last, -, hSized, rfl⟩ := Assembly.prepare_eq_ok_iff.mp hPrepare
  obtain ⟨sizes, hSizing⟩ := State.sizeLines_eq_ok_iff.mp hSized
  obtain ⟨records, hEmitting, hTakes⟩ := State.emitLines_eq_ok_iff.mp hEmit
  rw [← List.take_append_drop i stream] at hSizing hEmitting
  obtain ⟨sized, early, _, -, hSized', -⟩ := hSizing.split
  obtain ⟨emitted, front, back, rfl, hEmitted, -⟩ := hEmitting.split
  have hFront : sink.takes front = true := by
    simpa using Sink.takes_take hTakes front.length
  refine ⟨sized, emitted, State.sizeLines_eq_ok_iff.mpr ⟨early, hSized'⟩,
    State.emitLines_eq_ok_iff.mpr ⟨front, hEmitted, hFront⟩, ?_⟩
  rw [← State.toNat_add_ofNat]
  refine congrArg _ (hSized'.drift hEmitted rfl ?_)
  intro lines line others hSplit expression sizes records before before' hStatement hBefore hBefore'
  -- The lines in front of the origin are the first ones of the stream.
  obtain ⟨rest, hStream⟩ : ∃ rest, stream = lines ++ line :: rest := by
    refine ⟨others ++ stream.drop i, ?_⟩
    calc stream = stream.take i ++ stream.drop i := (List.take_append_drop i stream).symm
      _ = lines ++ line :: (others ++ stream.drop i) := by rw [hSplit]; simp
  have hLines : stream.take lines.length = lines := by simp [hStream]
  have hTaken : sink.takes records = true := by
    rw [hSplit] at hEmitted
    obtain ⟨middle, first, later, rfl, hFirst, -⟩ := hEmitted.split
    rw [(hBefore'.unique hFirst).1]
    simpa using Sink.takes_take hFront first.length
  apply hOrigins lines.length line expression before before' (by simp [hStream]) hStatement
  · rw [hLines]
    exact State.sizeLines_eq_ok_iff.mpr ⟨sizes, hBefore⟩
  · rw [hLines]
    exact State.emitLines_eq_ok_iff.mpr ⟨records, hBefore', hTaken⟩

/-- A program in which two instructions with a single operand stand in front of an origin, and
one behind it. -/
def drifting : Text := "ror r1\nlater: not r2\nmid: ORG 8\nhalt r0\nend: WORD later, end".toList

def driftingLines : List StreamLine :=
  [⟨1, "ror r1".toList⟩, ⟨2, "later: not r2".toList⟩, ⟨3, "mid: ORG 8".toList⟩,
    ⟨4, "halt r0".toList⟩, ⟨5, "end: WORD later, end".toList⟩]

/-- In front of the origin the passes are two words apart, behind it they are together, and at the
end they are one word apart. -/
theorem compatible_drift_drifting :
    [2, 3, 5].map (fun i => oneOperandsSinceOrigin (driftingLines.take i)) = [2, 0, 1] ∧
    ∃ start final, (Assembly.prepare .compatible drifting).result = .ok (driftingLines, start) ∧
      (start.emitLines .compatible .discard driftingLines).result = .ok final ∧
      ∀ i, ∃ sized emitted,
        (State.initial.sizeLines .compatible (driftingLines.take i)).result = .ok sized ∧
        (start.emitLines .compatible .discard (driftingLines.take i)).result = .ok emitted ∧
        emitted.counter.toNat =
          (sized.counter.toNat + oneOperandsSinceOrigin (driftingLines.take i)) % 2 ^ 32 := by
  let sized : State :=
    ⟨((SymbolTable.initial.define "later".toList 0).define "mid".toList 0).define "end".toList 8,
      10, .empty⟩
  have hSweep : (sweep drifting).result = .ok (driftingLines, .empty) := by rfl
  have hSized : (State.initial.sizeLines .compatible driftingLines).result = .ok sized := by rfl
  have hPrepare := Assembly.prepare_eq_ok_iff.mpr ⟨_, sized, hSweep, hSized, rfl⟩
  obtain ⟨final, hEmit⟩ :
      ∃ final, (State.emitLines .compatible { sized with counter := 0 } .discard
        driftingLines).result = .ok final := exists_eq_ok (by decide +kernel)
  refine ⟨by decide +kernel, _, final, hPrepare, hEmit, compatible_drift hPrepare hEmit ?_⟩
  intro i line expression before before' hLine hStatement _ _
  have hOnly : ∀ line ∈ driftingLines, line.isOrigin = true → line = ⟨3, "mid: ORG 8".toList⟩ := by
    decide +kernel
  -- The only origin is a number, which no symbol can change.
  have hEight : ∀ state : State, state.evaluate ['8'] = .ok 8 := fun _ => rfl
  have hIs := hOnly line (List.mem_of_getElem? hLine) (line.isOrigin_iff.mpr ⟨_, hStatement⟩)
  subst hIs
  cases hStatement
  exact (hEight _).trans (hEight _).symm

end TwoPass
