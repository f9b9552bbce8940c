import TwoPass.Proofs.Assembly.Binding
import TwoPass.Proofs.Expression.Value

/-! Agreement of the two passes under exact sizing. The emitting pass starts with the names that
the sizing pass has left behind, so in front of a line it also knows names that are bound later,
and old values of names that are bound again. What carries the proof is that an origin or a
constant was already evaluated by the sizing pass, which knew none of these. -/
namespace TwoPass

/-- The relation between the two passes in front of the same line. -/
structure Overlay (sized emitted : State) : Prop where
  counter : emitted.counter = sized.counter
  symbols : emitted.symbols.Extends sized.symbols

namespace Overlay

variable {sized emitted sized' emitted' : State} {words measured : List UInt16}

theorem labelled (h : Overlay sized emitted) (line : StreamLine) :
    Overlay (sized.labelled line) (emitted.labelled line) := by
  unfold State.labelled
  cases line.label with
  | none => exact h
  | some label =>
      refine ⟨h.counter, ?_⟩
      dsimp only
      rw [h.counter]
      exact h.symbols.define label sized.counter.toNat

/-- A value that the sizing pass finds is the value that the emitting pass finds. -/
theorem evaluate (h : Overlay sized emitted) {expression : Text} {value : UInt16}
    (hValue : sized.evaluate expression = .ok value) : emitted.evaluate expression = .ok value :=
  Expression.evaluateWord_mono h.symbols hValue

/-- Exact sizing measures what the emitting pass writes, so both passes move on equally far. -/
theorem performs {statement : Statement} (h : Overlay sized emitted)
    (hSized : Performs .exact .sizing sized statement sized' measured)
    (hEmitted : Performs .exact .emit emitted statement emitted' words) :
    Overlay sized' emitted' := by
  cases hSized with
  | blank =>
      cases hEmitted with
      | blank => exact h
      | write hPlaces => cases hPlaces
  | constant _ hValue =>
      cases hEmitted with
      | constant _ hValue' =>
          rw [h.evaluate hValue] at hValue'
          cases hValue'
          exact ⟨h.counter, h.symbols.define _ _⟩
      | write hPlaces => cases hPlaces
  | origin _ hValue =>
      cases hEmitted with
      | origin _ hValue' =>
          rw [h.evaluate hValue] at hValue'
          cases hValue'
          exact ⟨rfl, h.symbols⟩
      | write hPlaces => cases hPlaces
  | measure hPlaces =>
      cases hEmitted with
      | blank | constant | origin => cases hPlaces
      | write _ hWords =>
          refine ⟨?_, h.symbols⟩
          dsimp only
          rw [h.counter, Statement.length_words hWords]

theorem step {line : StreamLine} (h : Overlay sized emitted)
    (hSized : (sized.step .exact .sizing line).result = .ok (sized', measured))
    (hEmitted : (emitted.step .exact .emit line).result = .ok (emitted', words)) :
    Overlay sized' emitted' := by
  obtain ⟨statement, hStatement, hSized⟩ := State.step_eq_ok_iff.mp hSized
  obtain ⟨statement', hStatement', hEmitted⟩ := State.step_eq_ok_iff.mp hEmitted
  rw [hStatement] at hStatement'
  cases hStatement'
  exact (h.labelled line).performs hSized hEmitted

/-- Two passes over the same lines stay related. -/
theorem walk {lines : List StreamLine} {sizes records : List Record} (h : Overlay sized emitted)
    (hSized : Walk .exact .sizing sized lines sizes sized')
    (hEmitted : Walk .exact .emit emitted lines records emitted') : Overlay sized' emitted' := by
  induction hSized generalizing emitted records with
  | nil =>
      cases hEmitted
      exact h
  | cons first others ih =>
      cases hEmitted with
      | cons first' others' => exact ih (h.step first first') others'

/-- The passes are related at their starts: of the names that the emitting pass knows from the
sizing pass, those known at the start of the sizing pass are registers and have not changed. -/
theorem initial {lines : List StreamLine} {sizes : List Record}
    (hSized : Walk .exact .sizing .initial lines sizes sized) :
    Overlay .initial { sized with counter := 0 } := by
  refine ⟨rfl, ?_⟩
  intro name value hFound
  have hReserved : SymbolTable.isReserved name = true := by
    apply SymbolTable.isReserved_of_mem_names_initial
    rw [SymbolTable.mem_names_iff]
    exact Option.isSome_of_mem hFound
  have hFree : name ∉ boundNames lines := by
    intro hMem
    rw [isReserved_of_mem_boundNames hMem] at hReserved
    cases hReserved
  exact (hSized.get?_of_not_bound hFree).trans hFound

/-- Once both passes are through, the emitting pass has brought every name back to the value that
the sizing pass left, and has added none. -/
theorem symbols_eq {lines : List StreamLine} {sizes records : List Record}
    (hSized : Walk .exact .sizing .initial lines sizes sized)
    (hEmitted : Walk .exact .emit { sized with counter := 0 } lines records emitted) :
    emitted.symbols = sized.symbols := by
  have hOverlay : Overlay sized emitted := (initial hSized).walk hSized hEmitted
  have hNames : emitted.symbols.names = sized.symbols.names :=
    hEmitted.names_eq fun name hMem => hSized.mem_names_of_bound hMem
  have hNodup : emitted.symbols.names.Nodup :=
    hEmitted.nodup_names (hSized.nodup_names SymbolTable.nodup_names_initial)
  exact hOverlay.symbols.eq hNames hNodup

end Overlay

/-- Under exact sizing, both passes stand at the same counter in front of each line that the
emitting pass reaches, and every name bound by then has the same value in both. The emitting pass
reaches a line when it gets through all lines in front of it and the sink takes their records. If
it gets through all lines, the two passes end with the same table. -/
theorem exact_passes_agree {source : Text} {stream : List StreamLine} {macros : MacroTable}
    {sized : State} (hSweep : (sweep source).result = .ok (stream, macros))
    (hSized : (State.initial.sizeLines .exact stream).result = .ok sized) (sink : Sink) :
    (∀ i emitted,
      (State.emitLines .exact { sized with counter := 0 } sink (stream.take i)).result =
        .ok emitted →
      ∃ before, (State.initial.sizeLines .exact (stream.take i)).result = .ok before ∧
        emitted.counter = before.counter ∧
        ∀ name ∈ boundNames (stream.take i), ∃ value,
          before.symbols.get? name = some value ∧ emitted.symbols.get? name = some value) ∧
    ∀ assembly, (Assembly.run .exact sink source).result = .ok assembly →
      assembly.symbols = sized.symbols := by
  obtain ⟨sizes, hWalk⟩ := State.sizeLines_eq_ok_iff.mp hSized
  constructor
  · intro i emitted hEmitted
    obtain ⟨records, hPrefix, _⟩ := State.emitLines_eq_ok_iff.mp hEmitted
    have hSplit := hWalk
    rw [← List.take_append_drop i stream] at hSplit
    obtain ⟨before, early, late, _, hBefore, _⟩ := hSplit.split
    have hOverlay := (Overlay.initial hWalk).walk hBefore hPrefix
    refine ⟨before, State.sizeLines_eq_ok_iff.mpr ⟨early, hBefore⟩, hOverlay.counter, ?_⟩
    intro name hMem
    have hBound := hBefore.mem_names_of_bound hMem
    rw [SymbolTable.mem_names_iff, Option.isSome_iff_exists] at hBound
    obtain ⟨value, hValue⟩ := hBound
    exact ⟨value, hValue, hOverlay.symbols name value hValue⟩
  · intro assembly hRun
    obtain ⟨stream', start, final, records, hPrepare, hEmitted, _, rfl⟩ :=
      Assembly.run_eq_ok_iff.mp hRun
    obtain ⟨macros', sized', hSweep', hSized', rfl⟩ := Assembly.prepare_eq_ok_iff.mp hPrepare
    rw [hSweep] at hSweep'
    cases hSweep'
    rw [hSized] at hSized'
    cases hSized'
    exact Overlay.symbols_eq hWalk hEmitted

/-- A program whose origin follows a constant, with a register as a label, a reference forward
and a name that is bound twice. -/
def rebound : Text := "EQU b, 2\nORG b\nr3: mov r1, r0, a\na: ror r1\na: WORD a".toList

def reboundLines : List StreamLine :=
  [⟨1, "EQU b, 2".toList⟩, ⟨2, "ORG b".toList⟩, ⟨3, "r3: mov r1, r0, a".toList⟩,
    ⟨4, "a: ror r1".toList⟩, ⟨5, "a: WORD a".toList⟩]

/-- In front of the last line the two passes agree on the name that this line binds again, and
both of them get through. -/
theorem exact_passes_agree_rebound :
    ∃ sized emitted before assembly,
      (State.initial.sizeLines .exact reboundLines).result = .ok sized ∧
      (State.emitLines .exact { sized with counter := 0 } (.writer none)
        (reboundLines.take 4)).result = .ok emitted ∧
      (State.initial.sizeLines .exact (reboundLines.take 4)).result = .ok before ∧
      emitted.counter = before.counter ∧
      emitted.symbols.get? ['a'] = before.symbols.get? ['a'] ∧
      (Assembly.run .exact (.writer none) rebound).result = .ok assembly ∧
      assembly.symbols = sized.symbols := by
  have hSweep : (sweep rebound).result = .ok (reboundLines, .empty) := by rfl
  let sized : State :=
    ⟨((SymbolTable.initial.define ['b'] 2).define ['a'] 4).define ['a'] 5, 6, .empty⟩
  have hSized : (State.initial.sizeLines .exact reboundLines).result = .ok sized := by rfl
  have hAgree := exact_passes_agree hSweep hSized (.writer none)
  obtain ⟨emitted, hEmitted⟩ : ∃ emitted,
      (State.emitLines .exact { sized with counter := 0 } (.writer none)
        (reboundLines.take 4)).result = .ok emitted :=
    exists_eq_ok (by decide +kernel)
  obtain ⟨assembly, hRun⟩ : ∃ assembly,
      (Assembly.run .exact (.writer none) rebound).result = .ok assembly :=
    exists_eq_ok (by decide +kernel)
  obtain ⟨before, hBefore, hCounter, hNames⟩ := hAgree.1 4 emitted hEmitted
  obtain ⟨value, hSizedValue, hEmittedValue⟩ := hNames ['a'] (by decide +kernel)
  exact ⟨sized, emitted, before, assembly, hSized, hEmitted, hBefore, hCounter,
    hEmittedValue.trans hSizedValue.symm, hRun, hAgree.2 assembly hRun⟩

end TwoPass
