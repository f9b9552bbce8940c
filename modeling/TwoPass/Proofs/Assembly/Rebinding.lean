import TwoPass.Proofs.Assembly.Definitions
import TwoPass.Proofs.Expression.Mention

/-! The emitting pass binds every name again. It starts with the table that the sizing pass has left
behind, whose values may be wrong, but a constant or an origin mentions only names that are bound in
front of it, since otherwise the sizing pass would have found no value. By the time such a name is
mentioned, the emitting pass has given it a value of its own. So the old values reach operands only,
and no value in the result comes from the sizing pass. -/
namespace TwoPass

/-- What a record shows apart from the values of its words. -/
def Record.extent (record : Record) : StreamLine × UInt32 × Nat :=
  (record.line, record.address, record.words.length)

/-- A state with the registers of a fresh table. Nothing is said about other names. -/
def State.HasRegisters (state : State) : Prop :=
  ∀ name, SymbolTable.isReserved name = true →
    state.symbols.get? name = SymbolTable.initial.get? name

/-- No pass changes a register. -/
theorem Walk.get?_of_isReserved {sizing : Sizing} {pass : Pass} {state final : State}
    {lines : List StreamLine} {records : List Record} {name : Text}
    (walk : Walk sizing pass state lines records final)
    (h : SymbolTable.isReserved name = true) :
    final.symbols.get? name = state.symbols.get? name := by
  apply walk.get?_of_not_bound
  intro hMem
  rw [isReserved_of_mem_boundNames hMem] at h
  cases h

/-- The emitting pass starts with the registers of a fresh table. -/
theorem Walk.hasRegisters {sizing : Sizing} {sized : State} {lines : List StreamLine}
    {sizes : List Record} (walk : Walk sizing .sizing .initial lines sizes sized) :
    State.HasRegisters { sized with counter := 0 } :=
  fun _ hReserved => walk.get?_of_isReserved hReserved

/-- Two states from which emitting passes over the same lines can be compared: apart from the
counter, only their registers have to be the same. -/
structure Comparable (emitted other : State) : Prop where
  counter : other.counter = emitted.counter
  registers : ∀ name, SymbolTable.isReserved name = true →
    other.symbols.get? name = emitted.symbols.get? name

theorem State.HasRegisters.comparable {emitted other : State} (hEmitted : emitted.HasRegisters)
    (hOther : other.HasRegisters) (hCounter : other.counter = emitted.counter) :
    Comparable emitted other := by
  refine ⟨hCounter, ?_⟩
  intro name hReserved
  rw [hEmitted name hReserved, hOther name hReserved]

/-- Two emitting passes beside a sizing pass, in front of the same line. They may have started from
different tables, but they agree on every name that the sizing pass has met so far. -/
structure Settled (sized emitted other : State) : Prop where
  counter : other.counter = emitted.counter
  symbols : ∀ name ∈ sized.symbols.names, other.symbols.get? name = emitted.symbols.get? name

namespace Settled

variable {sizing sizing₁ sizing₂ : Sizing} {sized emitted other sized' emitted' other' : State}
  {measured words words' : List UInt16}

theorem define (h : Settled sized emitted other) (name : Text) (value measure : Nat) :
    ∀ known ∈ (sized.symbols.define name measure).names,
      (other.symbols.define name value).get? known =
        (emitted.symbols.define name value).get? known := by
  intro known hKnown
  rw [SymbolTable.get?_define, SymbolTable.get?_define]
  by_cases hName : name = known ∧ SymbolTable.isReserved name = false
  · rw [if_pos hName, if_pos hName]
  · rw [if_neg hName, if_neg hName]
    apply h.symbols
    rw [SymbolTable.names_define] at hKnown
    split at hKnown
    · exact hKnown
    · next hNew =>
        rcases List.mem_append.mp hKnown with hOld | hLast
        · exact hOld
        · rw [List.mem_singleton] at hLast
          rw [not_or, Bool.not_eq_true] at hNew
          exact absurd ⟨hLast.symm, hNew.1⟩ hName

theorem labelled (h : Settled sized emitted other) (line : StreamLine) :
    Settled (sized.labelled line) (emitted.labelled line) (other.labelled line) := by
  unfold State.labelled
  cases line.label with
  | none => exact h
  | some label =>
      refine ⟨h.counter, ?_⟩
      dsimp only
      rw [h.counter]
      exact h.define label emitted.counter.toNat sized.counter.toNat

/-- What the sizing pass could evaluate has the same value in both emitting passes, though not
necessarily the value that the sizing pass found. -/
theorem evaluate (h : Settled sized emitted other) {expression : Text} {value : UInt16}
    (hValue : sized.evaluate expression = .ok value) :
    other.evaluate expression = emitted.evaluate expression := by
  apply Expression.evaluateWord_congr
  intro name hMem
  apply h.symbols
  rw [SymbolTable.mem_names_iff]
  exact Expression.isSome_of_evaluateWord_eq_ok hValue name hMem

theorem performs {statement : Statement} (h : Settled sized emitted other)
    (hSized : Performs sizing .sizing sized statement sized' measured)
    (hEmitted : Performs sizing₁ .emit emitted statement emitted' words)
    (hOther : Performs sizing₂ .emit other statement other' words') :
    Settled sized' emitted' other' ∧ words'.length = words.length := by
  cases hSized with
  | blank =>
      obtain ⟨rfl, rfl⟩ := hEmitted.of_blank
      obtain ⟨rfl, rfl⟩ := hOther.of_blank
      exact ⟨h, rfl⟩
  | constant _ hValue =>
      obtain ⟨value, hFirst, rfl, rfl⟩ := hEmitted.of_constant
      obtain ⟨value', hSecond, rfl, rfl⟩ := hOther.of_constant
      rw [h.evaluate hValue, hFirst] at hSecond
      cases hSecond
      exact ⟨⟨h.counter, h.define _ _ _⟩, rfl⟩
  | origin _ hValue =>
      obtain ⟨value, hFirst, rfl, rfl⟩ := hEmitted.of_origin
      obtain ⟨value', hSecond, rfl, rfl⟩ := hOther.of_origin
      rw [h.evaluate hValue, hFirst] at hSecond
      cases hSecond
      exact ⟨⟨rfl, h.symbols⟩, rfl⟩
  | measure hPlaces =>
      obtain ⟨hFirst, rfl⟩ := hEmitted.of_emit hPlaces
      obtain ⟨hSecond, rfl⟩ := hOther.of_emit hPlaces
      -- How many words there are depends on the statement alone.
      have hLength : words'.length = words.length := by
        rw [Statement.length_words hFirst, Statement.length_words hSecond]
      refine ⟨⟨?_, h.symbols⟩, hLength⟩
      dsimp only
      rw [h.counter, hLength]

theorem step {line : StreamLine} (h : Settled sized emitted other)
    (hSized : (sized.step sizing .sizing line).result = .ok (sized', measured))
    (hEmitted : (emitted.step sizing₁ .emit line).result = .ok (emitted', words))
    (hOther : (other.step sizing₂ .emit line).result = .ok (other', words')) :
    Settled sized' emitted' other' ∧ words'.length = words.length := by
  obtain ⟨statement, hStatement, hSized⟩ := State.step_eq_ok_iff.mp hSized
  obtain ⟨statement₁, hStatement₁, hEmitted⟩ := State.step_eq_ok_iff.mp hEmitted
  obtain ⟨statement₂, hStatement₂, hOther⟩ := State.step_eq_ok_iff.mp hOther
  rw [hStatement] at hStatement₁ hStatement₂
  cases hStatement₁
  cases hStatement₂
  exact (h.labelled line).performs hSized hEmitted hOther

/-- The passes stay related along their lines. The records of the emitting passes differ in the
values of words at most. -/
theorem walk {lines : List StreamLine} {sizes records others : List Record}
    (h : Settled sized emitted other)
    (hSized : Walk sizing .sizing sized lines sizes sized')
    (hEmitted : Walk sizing₁ .emit emitted lines records emitted')
    (hOther : Walk sizing₂ .emit other lines others other') :
    Settled sized' emitted' other' ∧ others.map Record.extent = records.map Record.extent := by
  induction hSized generalizing emitted other records others with
  | nil =>
      cases hEmitted
      cases hOther
      exact ⟨h, rfl⟩
  | cons first _ ih =>
      cases hEmitted with
      | cons first₁ rest₁ =>
          cases hOther with
          | cons first₂ rest₂ =>
              obtain ⟨hNext, hLength⟩ := h.step first first₁ first₂
              obtain ⟨hLast, hExtents⟩ := ih hNext rest₁ rest₂
              refine ⟨hLast, ?_⟩
              rw [List.map_cons, List.map_cons, hExtents]
              simp only [Record.extent, h.counter, hLength]

/-- In front of the first line, the sizing pass has met the registers only. -/
theorem initial (h : Comparable emitted other) : Settled .initial emitted other := by
  refine ⟨h.counter, ?_⟩
  intro name hMem
  exact h.registers name (SymbolTable.isReserved_of_mem_names_initial name hMem)

/-- Behind some lines, emitting passes agree on the registers and on all names that these lines
bind. It makes no difference what the names were at the start. -/
theorem get?_eq {lines : List StreamLine} {sizes records others : List Record} {name : Text}
    (hStart : Comparable emitted other) (hSized : Walk sizing .sizing .initial lines sizes sized)
    (hEmitted : Walk sizing₁ .emit emitted lines records emitted')
    (hOther : Walk sizing₂ .emit other lines others other')
    (hName : SymbolTable.isReserved name = true ∨ name ∈ boundNames lines) :
    other'.symbols.get? name = emitted'.symbols.get? name := by
  rcases hName with hReserved | hBound
  · rw [hOther.get?_of_isReserved hReserved, hEmitted.get?_of_isReserved hReserved]
    exact hStart.registers name hReserved
  · have hSettled := (Settled.initial hStart).walk hSized hEmitted hOther
    exact hSettled.1.symbols name (hSized.mem_names_of_bound hBound)

end Settled

/-- How a record gives a name its value: a label is the address of the record, and a constant is the
value of its expression in the state in front of the line. -/
inductive Record.Gives (record : Record) (before : State) (name : Text) : UInt16 → Prop where
  | label (hLabel : record.line.label = some name) :
      Gives record before name (UInt16.ofNat record.address.toNat)
  | constant {expression : Text} {value : UInt16} (hLabel : record.line.label = none)
      (hStatement : record.line.statement = .ok (.constant name expression))
      (hValue : before.evaluate expression = .ok value) : Gives record before name value

/-- Behind a line, the name that it binds has exactly the value that its record gives. -/
theorem State.gives_iff_of_step {sizing : Sizing} {before next : State} {record : Record}
    {name : Text} {value : UInt16}
    (h : (before.step sizing .emit record.line).result = .ok (next, record.words))
    (hAddress : record.address = before.counter) (hBinding : record.line.binding? = some name) :
    record.Gives before name value ↔ next.symbols.get? name = some value := by
  have hFree := record.line.isReserved_of_binding? hBinding
  rcases symbols_of_step h with ⟨hNone, -⟩ | ⟨label, hLabelled, hLabel, hNext⟩ |
    ⟨constant, expression, found, hConstant, hLabel, hStatement, hValue, hNext⟩
  · rw [hNone] at hBinding
    cases hBinding
  · rw [hLabelled] at hBinding
    cases hBinding
    rw [hNext, SymbolTable.get?_define, if_pos ⟨rfl, hFree⟩, ← hAddress]
    constructor
    · intro hGives
      cases hGives with
      | label => rfl
      | constant hNoLabel =>
          rw [hLabel] at hNoLabel
          cases hNoLabel
    · intro hEq
      cases hEq
      exact .label hLabel
  · rw [hConstant] at hBinding
    cases hBinding
    rw [hNext, SymbolTable.get?_define, if_pos ⟨rfl, hFree⟩, UInt16.ofNat_toNat]
    constructor
    · intro hGives
      cases hGives with
      | label hLabel' =>
          rw [hLabel] at hLabel'
          cases hLabel'
      | constant _ hStatement' hValue' =>
          rw [hStatement] at hStatement'
          cases hStatement'
          rw [hValue] at hValue'
          cases hValue'
          rfl
    · intro hEq
      cases hEq
      exact .constant hLabel hStatement hValue

namespace Walk

variable {sizing : Sizing} {state sized final : State} {lines stream : List StreamLine}
  {sizes records : List Record}

/-- A name that is bound at all has a record of the line that binds it last. -/
theorem exists_last_record {name : Text} (walk : Walk sizing .emit state lines records final)
    (h : name ∈ boundNames lines) :
    ∃ i record before, records[i]? = some record ∧ record.line.binding? = some name ∧
      name ∉ boundNames (lines.drop (i + 1)) ∧
      Walk sizing .emit state (lines.take i) (records.take i) before := by
  induction walk with
  | nil => simp [boundNames] at h
  | @cons state next final line rest words records first others ih =>
      by_cases hRest : name ∈ boundNames rest
      · obtain ⟨i, record, before, hRecord, hBinding, hLast, hBefore⟩ := ih hRest
        exact ⟨i + 1, record, before, hRecord, hBinding, hLast, .cons first hBefore⟩
      · have hBinding := (mem_boundNames_cons.mp h).resolve_right hRest
        exact ⟨0, _, state, rfl, hBinding, hRest, .nil state⟩

/-- In the end a name has the value that the record of its last line gives. -/
theorem gives_iff {i : Nat} {record : Record} {early : List Record} {before : State} {name : Text}
    {value : UInt16} (walk : Walk sizing .emit state lines records final)
    (hRecord : records[i]? = some record) (hBinding : record.line.binding? = some name)
    (hLast : name ∉ boundNames (lines.drop (i + 1)))
    (hBefore : Walk sizing .emit state (lines.take i) early before) :
    record.Gives before name value ↔ final.symbols.get? name = some value := by
  obtain ⟨before', next, hBefore', hAddress, hStep, hAfter⟩ := walk.step_at hRecord
  obtain ⟨-, rfl⟩ := hBefore.unique hBefore'
  rw [hAfter.get?_of_not_bound hLast]
  exact State.gives_iff_of_step hStep hAddress hBinding

/-- The emitting pass leaves the names in the order in which the sizing pass has met them first. -/
theorem names_twice (hSizing : Walk sizing .sizing .initial stream sizes sized)
    (walk : Walk sizing .emit { sized with counter := 0 } stream records final) :
    final.symbols.names = SymbolTable.initial.names ++ (boundNames stream).eraseDups := by
  obtain ⟨calls, hCalls, hSymbols⟩ := hSizing.exists_definitions_twice walk
  have hFree : SymbolTable.freeNames calls = boundNames stream ++ boundNames stream := by
    rw [freeNames_eq_boundNames hCalls, boundNames_append]
  -- Behind the names of the sizing pass, the emitting pass brings no new ones.
  have hOnce : (boundNames stream).removeAll (boundNames stream) = [] := by
    simp [List.removeAll]
  rw [hSymbols, SymbolTable.names_defineAll_initial, hFree, List.eraseDups_append, hOnce,
    List.eraseDups_nil, List.append_nil]

theorem userSymbols_names (hSizing : Walk sizing .sizing .initial stream sizes sized)
    (walk : Walk sizing .emit { sized with counter := 0 } stream records final) :
    final.symbols.userSymbols.map Prod.fst = (boundNames stream).eraseDups := by
  have hSeeded :
      SymbolTable.initial.names.filter (fun name => !SymbolTable.isReserved name) = [] := by decide
  rw [SymbolTable.map_fst_userSymbols, hSizing.names_twice walk, List.filter_append, hSeeded,
    List.nil_append]
  apply List.filter_eq_self.mpr
  intro name hMem
  rw [isReserved_of_mem_boundNames (List.mem_eraseDups.mp hMem)]
  rfl

end Walk

/-- The symbols of the result, told from the stream and the emitting pass alone. They are the names
that lines of the stream bind, each once and in the order of the lines that bind them first, and
their values are those that the records of the last such lines give. No value of the sizing pass is
among them: an emitting pass over the same stream that starts with any other values, or with none,
ends with the same ones if it gets through. -/
theorem emitting_pass_decides {sizing : Sizing} {sink : Sink} {source : Text} {assembly : Assembly}
    (hRun : (Assembly.run sizing sink source).result = .ok assembly) :
    ∃ stream start records,
      (Assembly.prepare sizing source).result = .ok (stream, start) ∧
      (Assembly.run sizing (.writer none) source).records = records ∧
      records.map Record.line = stream ∧
      assembly.symbols.userSymbols.map Prod.fst = (boundNames stream).eraseDups ∧
      (∀ name value, (name, value) ∈ assembly.symbols.userSymbols ↔
        ∃ i record before, records[i]? = some record ∧ record.line.binding? = some name ∧
          name ∉ boundNames (stream.drop (i + 1)) ∧
          (start.emitLines sizing (.writer none) (stream.take i)).result = .ok before ∧
          record.Gives before name value) ∧
      ∀ (other final : State) sink', other.counter = 0 →
        other.HasRegisters → (other.emitLines sizing sink' stream).result = .ok final →
        ∀ name ∈ boundNames stream, final.symbols.get? name = assembly.symbols.get? name := by
  obtain ⟨stream, start, final, records, hPrepare, walk, -, rfl⟩ := Assembly.run_eq_ok_iff.mp hRun
  obtain ⟨macros, sized, -, hSized, rfl⟩ := Assembly.prepare_eq_ok_iff.mp hPrepare
  obtain ⟨sizes, hSizing⟩ := State.sizeLines_eq_ok_iff.mp hSized
  refine ⟨stream, _, records, hPrepare,
    Assembly.records_run hPrepare walk (Sink.takes_unlimited records), walk.map_line, ?_, ?_, ?_⟩
  · exact hSizing.userSymbols_names walk
  · intro name value
    have hNodup : final.symbols.names.Nodup :=
      walk.nodup_names (hSizing.nodup_names SymbolTable.nodup_names_initial)
    constructor
    · intro hSymbol
      have hBound : name ∈ boundNames stream := by
        rw [← List.mem_eraseDups, ← hSizing.userSymbols_names walk]
        exact List.mem_map_of_mem hSymbol
      obtain ⟨i, record, before, hRecord, hBinding, hLast, hBefore⟩ :=
        walk.exists_last_record hBound
      have hValue := ((SymbolTable.mem_userSymbols_iff hNodup).mp hSymbol).2
      refine ⟨i, record, before, hRecord, hBinding, hLast, ?_, ?_⟩
      · exact State.emitLines_eq_ok_iff.mpr ⟨_, hBefore, Sink.takes_unlimited _⟩
      · exact (walk.gives_iff hRecord hBinding hLast hBefore).mpr hValue
    · rintro ⟨i, record, before, hRecord, hBinding, hLast, hEmitted, hGives⟩
      obtain ⟨early, hBefore, -⟩ := State.emitLines_eq_ok_iff.mp hEmitted
      have hValue := (walk.gives_iff hRecord hBinding hLast hBefore).mp hGives
      exact (SymbolTable.mem_userSymbols_iff hNodup).mpr
        ⟨record.line.isReserved_of_binding? hBinding, hValue⟩
  · intro other final' sink' hCounter hRegisters hEmitted name hBound
    obtain ⟨others, walk', -⟩ := State.emitLines_eq_ok_iff.mp hEmitted
    have hStart := hSizing.hasRegisters.comparable hRegisters hCounter
    exact Settled.get?_eq hStart hSizing walk walk' (.inr hBound)

/-- A program for which compatible sizing finds wrong values. The constant follows the first of two
labels `x`, and one label is the name of a register. -/
def stale : Text := "ror r1\nx: WORD 1\nEQU y, x + 1\nr3: WORD 2\nx: WORD 3".toList

def staleLines : List StreamLine :=
  [⟨1, "ror r1".toList⟩, ⟨2, "x: WORD 1".toList⟩, ⟨3, "EQU y, x + 1".toList⟩,
    ⟨4, "r3: WORD 2".toList⟩, ⟨5, "x: WORD 3".toList⟩]

/-- The sizing pass ends with two for `x` and one for `y`, and the result has three and two. These
are also the values that a pass from a fresh table finds. -/
theorem emitting_pass_decides_stale :
    ∃ assembly final,
      (Assembly.run .compatible .discard stale).result = .ok assembly ∧
      (State.initial.emitLines .compatible .discard staleLines).result = .ok final ∧
      final.symbols.get? ['y'] = some 2 ∧
      assembly.symbols.userSymbols.map Prod.fst = [['x'], ['y']] ∧
      (['x'], 3) ∈ assembly.symbols.userSymbols ∧
      final.symbols.get? ['y'] = assembly.symbols.get? ['y'] := by
  obtain ⟨assembly, hRun⟩ :
      ∃ assembly, (Assembly.run .compatible .discard stale).result = .ok assembly :=
    exists_eq_ok (by decide +kernel)
  obtain ⟨final, hFinal⟩ :
      ∃ final, (State.initial.emitLines .compatible .discard staleLines).result = .ok final :=
    exists_eq_ok (by decide +kernel)
  have hConstant : (State.initial.emitLines .compatible .discard staleLines).result.toOption.map
      (·.symbols.get? ['y']) = some (some 2) := by decide +kernel
  obtain ⟨stream, start, records, hPrepare, rfl, hLines, hNames, hValues, hOthers⟩ :=
    emitting_pass_decides hRun
  have hStream : (Assembly.run .compatible (.writer none) stale).records.map Record.line =
      staleLines := by decide +kernel
  rw [hStream] at hLines
  subst hLines
  obtain ⟨before, hBefore⟩ :
      ∃ before, (start.emitLines .compatible (.writer none) (staleLines.take 4)).result =
        .ok before := by
    have hReached : (Assembly.prepare .compatible stale).result.toOption.map (fun prepared =>
        (prepared.2.emitLines .compatible (.writer none)
          (staleLines.take 4)).result.toOption.isSome) = some true := by decide +kernel
    apply exists_eq_ok
    simpa [hPrepare, Except.toOption] using hReached
  refine ⟨assembly, final, hRun, hFinal, ?_, hNames.trans (by decide +kernel), ?_, ?_⟩
  · simpa [hFinal, Except.toOption] using hConstant
  · exact (hValues _ _).mpr ⟨4, ⟨3, [3], ⟨5, "x: WORD 3".toList⟩⟩, before, by decide +kernel,
      by decide +kernel, by decide +kernel, hBefore, .label (by decide +kernel)⟩
  · exact hOthers .initial final .discard rfl (fun _ _ => rfl) hFinal _ (by decide +kernel)

end TwoPass
