import TwoPass.Proofs.Assembly.Binding
import TwoPass.Proofs.Expression.Grammar
import TwoPass.Proofs.Line.Parts
import TwoPass.Proofs.Symbol.History

/-! The definitions that a pass makes. Each line defines its label or else its constant, also where
the name turns out to belong to a register. So the table at any point of a pass is a fresh one that
has been through the definitions of some lines, and everything that holds of such tables holds
there. -/
namespace TwoPass

namespace Text

theorem isWordChar_of_isNameChar {c : Char} (h : Expression.isNameChar c = true) :
    isWordChar c = true := by
  have hAscii : c.toNat < 0x80 := by
    rcases Bool.or_eq_true_iff.mp h with hAlphanum | hUnderscore
    · rcases Bool.or_eq_true_iff.mp hAlphanum with hAlpha | hDigit
      · rcases Bool.or_eq_true_iff.mp hAlpha with hUpper | hLower
        · exact Nat.lt_of_le_of_lt (of_decide_eq_true hUpper).2 (by decide)
        · have hRange := Bool.and_eq_true_iff.mp hLower
          exact Nat.lt_of_le_of_lt (of_decide_eq_true hRange.2) (by decide)
      · exact Nat.lt_of_le_of_lt (Char.isDigit_iff_toNat.mp hDigit).2 (by decide)
    · rw [eq_of_beq hUnderscore]
      decide
  rw [isWordChar, if_pos hAscii]
  exact h

theorem all_isWordChar_of_isName {name : Text} (h : Expression.isName name = true) :
    name.all isWordChar = true := by
  cases name with
  | nil => rfl
  | cons c rest =>
      rw [Expression.isName, Bool.and_eq_true, List.all_eq_true] at h
      rw [List.all_eq_true]
      intro d hMem
      apply isWordChar_of_isNameChar
      rcases List.mem_cons.mp hMem with rfl | hRest
      · exact Expression.isNameChar_of_isNameStart h.1
      · exact h.2 d hRest

end Text

namespace Line

theorem isName_of_constantOr {line : Line} {name expression name' expression' : Text}
    (h : line.constantOr name expression = .ok (.constant name' expression')) :
    Expression.isName name' = true := by
  rcases constantOr_eq_ok_iff.mp h with ⟨-, hBlank⟩ | ⟨-, hName, hConstant⟩
  · cases hBlank
  · cases hConstant
    exact hName

/-- A constant has a name that expressions can mention. -/
theorem isName_of_statement {line : Line} {name expression : Text}
    (h : line.statement = .ok (.constant name expression)) : Expression.isName name = true := by
  unfold statement instructionOrConstant at h
  repeat' split at h
  all_goals first | exact isName_of_constantOr h | cases h

end Line

namespace StreamLine

/-- The name that a line defines, whether or not it belongs to a register: its label or else the
name of its constant. -/
def defined? (line : StreamLine) : Option Text := line.label <|> line.constant?.map Prod.fst

theorem defined?_isWord {line : StreamLine} {name : Text} (h : line.defined? = some name) :
    name.all Text.isWordChar = true := by
  cases hLabel : line.label with
  | some label =>
      rw [defined?, hLabel] at h
      cases h
      exact splitLabel_isWord hLabel
  | none =>
      rw [defined?, hLabel] at h
      obtain ⟨⟨_, expression⟩, hConstant, rfl⟩ := Option.map_eq_some_iff.mp h
      apply Text.all_isWordChar_of_isName
      unfold constant? at hConstant
      split at hConstant
      · next hStatement =>
          cases hConstant
          exact Line.isName_of_statement hStatement
      · cases hConstant

end StreamLine

/-- The names that lines bind are those that they define without the registers. -/
theorem freeNames_eq_boundNames {calls : List (Text × Nat)} {lines : List StreamLine}
    (h : calls.map Prod.fst = lines.filterMap StreamLine.defined?) :
    SymbolTable.freeNames calls = boundNames lines := by
  rw [SymbolTable.freeNames, h, List.filter_filterMap]
  rfl

namespace State

variable {sizing : Sizing} {pass : Pass} {state next : State} {line : StreamLine}
  {words : List UInt16}

theorem symbols_labelled (state : State) (line : StreamLine) :
    (state.labelled line).symbols =
      state.symbols.defineAll
        (line.label.toList.map fun label => (label, state.counter.toNat)) := by
  unfold labelled
  cases line.label <;> rfl

/-- A line makes at most one definition. -/
theorem exists_definitions_of_step (h : (state.step sizing pass line).result = .ok (next, words)) :
    ∃ calls, calls.map Prod.fst = line.defined?.toList ∧
      next.symbols = state.symbols.defineAll calls := by
  cases hLabel : line.label with
  | some label =>
      exact ⟨[(label, state.counter.toNat)], by simp [StreamLine.defined?, hLabel],
        symbols_of_labelled_step h hLabel⟩
  | none =>
      obtain ⟨statement, hStatement, hPerforms⟩ := step_eq_ok_iff.mp h
      have hLabelled : state.labelled line = state := by simp [labelled, hLabel]
      rw [hLabelled] at hPerforms
      cases hPerforms with
      | @constant _ _ name expression value hValue =>
          refine ⟨[(name, value.toNat)], ?_, rfl⟩
          simp [StreamLine.defined?, hLabel, StreamLine.constant?, hStatement]
      | blank | origin =>
          exact ⟨[], by simp [StreamLine.defined?, hLabel, StreamLine.constant?, hStatement], rfl⟩
      | measure hPlaces | write hPlaces =>
          have hConstant := line.constant?_eq_none_of_places hStatement hPlaces
          exact ⟨[], by simp [StreamLine.defined?, hLabel, hConstant], rfl⟩

/-- A state whose table shows the definitions of lines, and that of a further label as soon as the
line with the label is entered. -/
def ShowsDefinitions (state : State) (lines : List StreamLine) : Prop :=
  ∃ calls, calls.map Prod.fst = lines.filterMap StreamLine.defined? ∧ state.symbols.Shows calls ∧
    ∀ line : StreamLine, (state.labelled line).symbols.Shows
      (calls ++ line.label.toList.map fun label => (label, state.counter.toNat))

end State

/-- A pass makes the definitions of its lines, in their order. -/
theorem Walk.exists_definitions {sizing : Sizing} {pass : Pass} {state final : State}
    {lines : List StreamLine} {records : List Record}
    (walk : Walk sizing pass state lines records final) :
    ∃ calls, calls.map Prod.fst = lines.filterMap StreamLine.defined? ∧
      final.symbols = state.symbols.defineAll calls := by
  induction walk with
  | nil => exact ⟨[], rfl, rfl⟩
  | @cons state next final line rest words records first others ih =>
      obtain ⟨calls, hFirst, hNext⟩ := State.exists_definitions_of_step first
      obtain ⟨more, hRest, hFinal⟩ := ih
      refine ⟨calls ++ more, ?_, ?_⟩
      · rw [List.map_append, hFirst, hRest, List.filterMap_cons]
        cases line.defined? <;> rfl
      · rw [hFinal, hNext, SymbolTable.defineAll_append]

/-- The emitting pass makes its definitions on top of those of the sizing pass. -/
theorem Walk.exists_definitions_twice {sizing : Sizing} {sized emitted : State}
    {stream lines : List StreamLine} {sizes records : List Record}
    (hSizing : Walk sizing .sizing .initial stream sizes sized)
    (hEmitting : Walk sizing .emit { sized with counter := 0 } lines records emitted) :
    ∃ calls, calls.map Prod.fst = (stream ++ lines).filterMap StreamLine.defined? ∧
      emitted.symbols = SymbolTable.initial.defineAll calls := by
  obtain ⟨calls, hNames, hSized⟩ := hSizing.exists_definitions
  obtain ⟨more, hMore, hEmitted⟩ := hEmitting.exists_definitions
  have hStart : sized.symbols = SymbolTable.initial.defineAll calls := hSized
  refine ⟨calls ++ more, ?_, ?_⟩
  · rw [List.map_append, hNames, hMore, List.filterMap_append]
  · rw [hEmitted, SymbolTable.defineAll_append, ← hStart]

theorem State.showsDefinitions_of_symbols {state : State} {lines : List StreamLine}
    {calls : List (Text × Nat)} (hNames : calls.map Prod.fst = lines.filterMap StreamLine.defined?)
    (h : state.symbols = SymbolTable.initial.defineAll calls) : state.ShowsDefinitions lines := by
  refine ⟨calls, hNames, h ▸ SymbolTable.shows_defineAll calls, ?_⟩
  intro line
  rw [symbols_labelled, h, ← SymbolTable.defineAll_append]
  exact SymbolTable.shows_defineAll _

/-- Tables over whole runs. After any definitions at all, a fresh table shows what these definitions
say and still has its registers. A word is refused as the name of a register exactly if it is one of
the names that a fresh table has; and lines define words only. At every point of both passes, the
table is one that has been through the definitions of the lines so far, in the emitting pass on top
of all those of the sizing pass. -/
theorem tables_show_definitions :
    (∀ calls, (SymbolTable.initial.defineAll calls).Shows calls) ∧
    (∀ name : Text, name.all Text.isWordChar = true →
      (SymbolTable.isReserved name = true ↔ name ∈ SymbolTable.initial.names)) ∧
    (∀ (line : StreamLine) name, line.defined? = some name → name.all Text.isWordChar = true) ∧
    (∀ sizing lines sized, (State.initial.sizeLines sizing lines).result = .ok sized →
      sized.ShowsDefinitions lines) ∧
    ∀ sizing source stream start sink i emitted,
      (Assembly.prepare sizing source).result = .ok (stream, start) →
      (start.emitLines sizing sink (stream.take i)).result = .ok emitted →
      emitted.ShowsDefinitions (stream ++ stream.take i) := by
  refine ⟨SymbolTable.shows_defineAll, fun name => SymbolTable.isReserved_iff_mem_names_initial,
    fun line name => line.defined?_isWord, ?_, ?_⟩
  · intro sizing lines sized hSized
    obtain ⟨sizes, walk⟩ := State.sizeLines_eq_ok_iff.mp hSized
    obtain ⟨calls, hNames, hSymbols⟩ := walk.exists_definitions
    exact State.showsDefinitions_of_symbols hNames hSymbols
  · intro sizing source stream start sink i emitted hPrepare hEmitted
    obtain ⟨_, sized, -, hSized, rfl⟩ := Assembly.prepare_eq_ok_iff.mp hPrepare
    obtain ⟨sizes, hSizing⟩ := State.sizeLines_eq_ok_iff.mp hSized
    obtain ⟨records, hEmitting, -⟩ := State.emitLines_eq_ok_iff.mp hEmitted
    obtain ⟨calls, hNames, hSymbols⟩ := hSizing.exists_definitions_twice hEmitting
    exact State.showsDefinitions_of_symbols hNames hSymbols

/-- Definitions with a value beyond sixteen bits, a register, and a name that no line could spell
but that is refused as a register. -/
def redefinitions : List (Text × Nat) :=
  [(['x'], 1), (['r', '3'], 9), (['y'], 2), (['x'], 0x10005), (['r', '+', '5'], 7)]

def redefined : Text := "x: WORD 1\nr3: WORD x\nEQU x, 5".toList

def redefinedLines : List StreamLine :=
  [⟨1, "x: WORD 1".toList⟩, ⟨2, "r3: WORD x".toList⟩, ⟨3, "EQU x, 5".toList⟩]

/-- Registers stay and the redefined name keeps its place. The program defines three names in either
pass, of which one is refused. -/
theorem tables_show_definitions_redefined :
    (SymbolTable.initial.defineAll redefinitions).get? ['r', '3'] = some 3 ∧
    (SymbolTable.initial.defineAll redefinitions).userSymbols = [(['x'], 5), (['y'], 2)] ∧
    (SymbolTable.isReserved ['r', '0', '3'] = true ↔ ['r', '0', '3'] ∈ SymbolTable.initial.names) ∧
    ∃ start sized emitted,
      (State.initial.sizeLines .exact redefinedLines).result = .ok sized ∧
      (Assembly.prepare .exact redefined).result = .ok (redefinedLines, start) ∧
      (start.emitLines .exact .discard (redefinedLines.take 2)).result = .ok emitted ∧
      sized.ShowsDefinitions redefinedLines ∧
      emitted.ShowsDefinitions (redefinedLines ++ redefinedLines.take 2) := by
  obtain ⟨hTables, hWords, -, hSizing, hEmitting⟩ := tables_show_definitions
  obtain ⟨sized, hSized⟩ :
      ∃ sized, (State.initial.sizeLines .exact redefinedLines).result = .ok sized :=
    exists_eq_ok (by decide +kernel)
  have hSweep : (sweep redefined).result = .ok (redefinedLines, .empty) := by rfl
  have hPrepare := Assembly.prepare_eq_ok_iff.mpr ⟨_, sized, hSweep, hSized, rfl⟩
  obtain ⟨emitted, hEmitted⟩ :
      ∃ emitted, (State.emitLines .exact { sized with counter := 0 } .discard
        (redefinedLines.take 2)).result = .ok emitted := by
    have hReached : (State.initial.sizeLines .exact redefinedLines).result.toOption.map
        (fun sized => (State.emitLines .exact { sized with counter := 0 } .discard
          (redefinedLines.take 2)).result.toOption.isSome) = some true := by decide +kernel
    apply exists_eq_ok
    simpa [hSized, Except.toOption] using hReached
  refine ⟨(hTables redefinitions).registers 3 (by decide), ?_, hWords _ (by decide), _, sized,
    emitted, hSized, hPrepare, hEmitted, hSizing _ _ _ hSized, ?_⟩
  · exact (hTables redefinitions).user.trans (by decide)
  · exact hEmitting _ _ _ _ _ _ _ hPrepare hEmitted

end TwoPass
