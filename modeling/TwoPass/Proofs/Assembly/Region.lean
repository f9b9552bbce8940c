import TwoPass.Proofs.Assembly.Delivery
import TwoPass.Proofs.Assembly.Listing
import TwoPass.Proofs.Assembly.Numbering
import TwoPass.Proofs.Assembly.Resolution
import TwoPass.Proofs.Expression.Mention
import TwoPass.Proofs.Macro.Elimination

/-! Blocks of lines at addresses of their own. Exchanging two such blocks turns references back into
references forward, and the other way round. Under exact sizing this makes no difference: each block
gives its labels the same addresses wherever it stands, so the emitting pass sees the same values in
either order, and words that go to different cells can be written in either order. -/
namespace TwoPass

/-- Whether a line neither sets the counter nor defines a constant. A line with a label that would
define a constant otherwise is of this kind, since it defines the label alone. -/
def Line.isSteady (line : Line) : Bool :=
  match line.statement with
  | .ok (.constant ..) | .ok (.origin ..) => false
  | _ => true

/-- A steady line has no constant, so what it binds is its label. -/
theorem StreamLine.label_of_steady (line : StreamLine) {name : Text}
    (hSteady : (Line.parse line.text).isSteady = true) (hBinding : line.binding? = some name) :
    line.label = some name := by
  have hConstant : line.constant? = none := by
    unfold Line.isSteady at hSteady
    unfold constant? statement
    split
    · next hStatement =>
        rw [hStatement] at hSteady
        cases hSteady
    · rfl
  rw [binding?, hConstant, Option.filter_eq_some_iff] at hBinding
  simpa using hBinding.1

/-- A block of source lines that begins with an origin at a fixed address and sets the counter
nowhere else. It neither defines constants nor opens or closes macros. -/
structure Region where
  origin : Text
  address : Text
  body : List Text
  unlabelled : (Line.parse origin).label = none
  begins : (Line.parse origin).statement = .ok (.origin address)
  fixed : Expression.mentioned address = []
  steady : ∀ text ∈ body, (Line.parse text).isSteady = true
  plain : ∀ text ∈ origin :: body, Macro.delimits text = false

def Region.lines (region : Region) : List Text := region.origin :: region.body

/-- The cells that the words of a record go to. -/
def Record.cells (record : Record) : List UInt16 := record.placements.map Prod.fst

/-! Placements that do not meet. -/

theorem lastPlaced_eq_none {target : UInt16} {placed : List (UInt16 × UInt16)}
    (h : target ∉ placed.map Prod.fst) : lastPlaced target placed = none := by
  have hNone : (placed.filter fun placement => placement.1 = target) = [] := by
    rw [List.filter_eq_nil_iff]
    intro placement hMem hTarget
    exact h (List.mem_map.mpr ⟨placement, hMem, by simpa using hTarget⟩)
  simp [lastPlaced, hNone]

/-- The order of placements matters only for cells that both parts place a word in. -/
theorem lastPlaced_append_comm {placed others : List (UInt16 × UInt16)}
    (h : List.Disjoint (placed.map Prod.fst) (others.map Prod.fst)) (target : UInt16) :
    lastPlaced target (placed ++ others) = lastPlaced target (others ++ placed) := by
  rw [lastPlaced_append, lastPlaced_append]
  by_cases hMem : target ∈ placed.map Prod.fst
  · rw [lastPlaced_eq_none (h hMem), Option.none_or, Option.or_none]
  · rw [lastPlaced_eq_none hMem, Option.none_or, Option.or_none]

theorem Image.ext_cell {image other : Image}
    (h : ∀ address, image.cell address = other.cell address) : image = other := by
  obtain ⟨cells⟩ := image
  obtain ⟨cells'⟩ := other
  congr 1
  apply Vector.ext
  intro i hi
  have hAddress : (UInt16.ofNat i).toNat = i := by
    rw [UInt16.toNat_ofNat']
    exact Nat.mod_eq_of_lt hi
  simpa [cell, hAddress] using h (UInt16.ofNat i)

/-! Addresses in a listing, which all take the same space. -/

theorem Text.utf8Size_hexDigit (n : Nat) : (hexDigit n).utf8Size = 1 := by
  have hDigits : ∀ d < 16, (hexDigit d).utf8Size = 1 := by decide
  have hLow : hexDigit n = hexDigit (n % 16) := by simp [hexDigit]
  rw [hLow]
  exact hDigits (n % 16) (Nat.mod_lt n (by decide))

theorem Text.length_utf8_hex4 (w : UInt16) : (utf8 (hex4 w)).length = 4 := by
  simp [utf8, hex4, utf8Size_hexDigit]

theorem Record.length_bytes (address other : UInt32) (words : List UInt16) (line : StreamLine) :
    (bytes ⟨address, words, line⟩).length = (bytes ⟨other, words, line⟩).length := by
  simp [bytes, Listing.format, Text.length_utf8_hex4]

namespace State

/-- States that no line can tell apart, except by its place in the image. The names may stand in a
different order in the two tables. -/
structure Alike (state other : State) : Prop where
  counter : other.counter = state.counter
  symbols : ∀ name, other.symbols.get? name = state.symbols.get? name

variable {sizing : Sizing} {pass : Pass} {state next other : State} {line : StreamLine}
  {lines : List StreamLine} {words : List UInt16}

theorem evaluate_congr (h : ∀ name, other.symbols.get? name = state.symbols.get? name) :
    other.evaluate = state.evaluate := by
  funext expression
  rw [evaluate, evaluate, funext h]

namespace Alike

theorem labelled (h : Alike state other) (line : StreamLine) :
    Alike (state.labelled line) (other.labelled line) := by
  constructor
  · rw [labelled_counter, labelled_counter, h.counter]
  · intro name
    rw [get?_labelled, get?_labelled, h.counter, h.symbols]

theorem performs {statement : Statement} (h : Alike state other)
    (hPerforms : Performs sizing pass state statement next words) :
    ∃ other', Performs sizing pass other statement other' words ∧ Alike next other' := by
  have hEvaluate := evaluate_congr h.symbols
  cases hPerforms with
  | blank => exact ⟨other, .blank pass other, h⟩
  | constant _ hValue =>
      rw [← hEvaluate] at hValue
      refine ⟨_, .constant pass hValue, h.counter, ?_⟩
      intro name
      rw [SymbolTable.get?_define, SymbolTable.get?_define, h.symbols]
  | origin _ hValue =>
      rw [← hEvaluate] at hValue
      exact ⟨_, .origin pass hValue, rfl, h.symbols⟩
  | measure hPlaces => exact ⟨_, .measure hPlaces, congrArg (· + _) h.counter, h.symbols⟩
  | write hPlaces hWords =>
      have hSame : statement.words other = statement.words state := by
        cases statement <;> simp only [Statement.words, hEvaluate]
      rw [← hSame] at hWords
      exact ⟨_, .write hPlaces hWords, congrArg (· + _) h.counter, h.symbols⟩

/-- A pass from a state that is alike leads to the same records. -/
theorem walk {records : List Record} {final : State} (h : Alike state other)
    (hWalk : Walk sizing pass state lines records final) :
    ∃ other', Walk sizing pass other lines records other' ∧ Alike final other' := by
  induction hWalk generalizing other with
  | nil => exact ⟨other, .nil other, h⟩
  | @cons state next final line rest words records first others ih =>
      obtain ⟨statement, hStatement, hPerforms⟩ := step_eq_ok_iff.mp first
      obtain ⟨other', hPerforms', hNext⟩ := (h.labelled line).performs hPerforms
      obtain ⟨last, hOthers, hLast⟩ := ih hNext
      rw [← h.counter]
      have hStep := step_eq_ok_iff.mpr ⟨statement, hStatement, hPerforms'⟩
      exact ⟨last, .cons hStep hOthers, hLast⟩

end Alike

/-- The sizing pass gets past a steady line from every state at the same counter, and gives the name
of the line the same value there. -/
theorem exists_step_of_steady (hSteady : (Line.parse line.text).isSteady = true)
    (h : (state.step sizing .sizing line).result = .ok (next, words))
    (hCounter : other.counter = state.counter) :
    ∃ other', (other.step sizing .sizing line).result = .ok (other', words) ∧
      other'.counter = next.counter ∧
      ∀ name, line.binding? = some name ∨
        other.symbols.get? name = state.symbols.get? name →
        other'.symbols.get? name = next.symbols.get? name := by
  have hNames : ∀ name, line.binding? = some name ∨
      other.symbols.get? name = state.symbols.get? name →
      (other.labelled line).symbols.get? name = (state.labelled line).symbols.get? name := by
    intro name hName
    rw [get?_labelled, get?_labelled, hCounter]
    by_cases hLabel : line.label = some name ∧ SymbolTable.isReserved name = false
    · rw [if_pos hLabel, if_pos hLabel]
    · rw [if_neg hLabel, if_neg hLabel]
      apply hName.resolve_left
      intro hBinding
      exact hLabel ⟨line.label_of_steady hSteady hBinding, line.isReserved_of_binding? hBinding⟩
  obtain ⟨statement, hStatement, hPerforms⟩ := step_eq_ok_iff.mp h
  have hParsed : (Line.parse line.text).statement = .ok statement := hStatement
  cases hPerforms with
  | blank =>
      refine ⟨_, step_eq_ok_iff.mpr ⟨_, hStatement, .blank _ _⟩, ?_, hNames⟩
      simpa using hCounter
  | constant | origin => simp [Line.isSteady, hParsed] at hSteady
  | measure hPlaces =>
      refine ⟨_, step_eq_ok_iff.mpr ⟨_, hStatement, .measure hPlaces⟩, ?_, hNames⟩
      simpa using hCounter

/-- The sizing pass over steady lines, likewise. -/
theorem exists_walk_of_steady {sizes : List Record} {final : State}
    (walk : Walk sizing .sizing state lines sizes final)
    (hSteady : ∀ line ∈ lines, (Line.parse line.text).isSteady = true) (other : State)
    (hCounter : other.counter = state.counter) :
    ∃ other', Walk sizing .sizing other lines sizes other' ∧
      ∀ name, name ∈ boundNames lines ∨ other.symbols.get? name = state.symbols.get? name →
        other'.symbols.get? name = final.symbols.get? name := by
  induction walk generalizing other with
  | nil => exact ⟨other, .nil other, by simp [boundNames]⟩
  | @cons state next final line rest words sizes first others ih =>
      obtain ⟨other', hStep, hNext, hNames⟩ :=
        exists_step_of_steady (hSteady line (by simp)) first hCounter
      obtain ⟨last, hWalk, hLast⟩ :=
        ih (fun later hMem => hSteady later (by simp [hMem])) other' hNext
      rw [← hCounter]
      refine ⟨last, .cons hStep hWalk, ?_⟩
      intro name hName
      rw [mem_boundNames_cons, or_right_comm] at hName
      exact hLast name (hName.symm.imp_right (hNames name))

/-- An origin without a label at a fixed address sets the counter and changes nothing else. It does
so in every pass and from every state. -/
theorem exists_step_of_origin {expression : Text} (hLabel : line.label = none)
    (hStatement : line.statement = .ok (.origin expression))
    (hFixed : Expression.mentioned expression = [])
    (h : (state.step sizing pass line).result = .ok (next, words)) :
    words = [] ∧ ∃ value, next = { state with counter := value } ∧
      ∀ (other : State) (sizing : Sizing) (pass : Pass),
        (other.step sizing pass line).result = .ok ({ other with counter := value }, []) := by
  have hLabelled : ∀ other : State, other.labelled line = other := by
    intro other
    simp [labelled, hLabel]
  obtain ⟨statement, hParsed, hPerforms⟩ := step_eq_ok_iff.mp h
  rw [hStatement] at hParsed
  cases hParsed
  rw [hLabelled] at hPerforms
  cases hPerforms with
  | measure hPlaces | write hPlaces => cases hPlaces
  | @origin _ _ _ value hValue =>
      refine ⟨rfl, value.toUInt32, rfl, ?_⟩
      intro other sizing pass
      apply step_eq_ok_iff.mpr
      refine ⟨_, hStatement, ?_⟩
      rw [hLabelled]
      have hSame : other.evaluate expression = state.evaluate expression :=
        Expression.evaluateWord_congr (by simp [hFixed])
      exact .origin pass (hSame.trans hValue)

end State

namespace Region

variable {region : Region} {state final other : State} {lines : List StreamLine}
  {records sizes : List Record}

theorem exists_origin (hLines : lines.map StreamLine.text = region.lines) :
    ∃ origin body, lines = origin :: body ∧ origin.label = none ∧
      origin.statement = .ok (.origin region.address) ∧
      ∀ line ∈ body, (Line.parse line.text).isSteady = true := by
  obtain ⟨origin, body, rfl, hOrigin, hBody⟩ := List.map_eq_cons_iff.mp hLines
  refine ⟨origin, body, rfl, ?_, ?_, ?_⟩
  · rw [StreamLine.label, hOrigin]
    exact region.unlabelled
  · rw [StreamLine.statement, hOrigin]
    exact region.begins
  · intro line hMem
    apply region.steady
    rw [← hBody]
    exact List.mem_map_of_mem hMem

/-- A region that can be sized from one state can be sized from every state, and gives its names the
same values there. -/
theorem exists_sizing_walk (hLines : lines.map StreamLine.text = region.lines)
    (walk : Walk .exact .sizing state lines sizes final) (other : State) :
    ∃ sizes' other', Walk .exact .sizing other lines sizes' other' ∧
      ∀ name, name ∈ boundNames lines ∨ other.symbols.get? name = state.symbols.get? name →
        other'.symbols.get? name = final.symbols.get? name := by
  obtain ⟨origin, body, rfl, hLabel, hStatement, hSteady⟩ := exists_origin hLines
  cases walk with
  | cons first others =>
      obtain ⟨rfl, value, rfl, hAnywhere⟩ :=
        State.exists_step_of_origin hLabel hStatement region.fixed first
      obtain ⟨other', hWalk, hNames⟩ :=
        State.exists_walk_of_steady others hSteady { other with counter := value } rfl
      refine ⟨_, other', .cons (hAnywhere other .exact .sizing) hWalk, ?_⟩
      have hBinding : origin.binding? = none := by
        simp [StreamLine.binding?, StreamLine.constant?, hLabel, hStatement]
      intro name hName
      rw [mem_boundNames_cons, hBinding] at hName
      exact hNames name (by simpa using hName)

/-- A region that can be emitted from one state can be emitted from every state in which names have
the same values. It places the same words in the same cells and takes the same space in a
listing. -/
theorem exists_emitting_walk (hLines : lines.map StreamLine.text = region.lines)
    (walk : Walk .exact .emit state lines records final)
    (hSymbols : ∀ name, other.symbols.get? name = state.symbols.get? name) :
    ∃ records' other', Walk .exact .emit other lines records' other' ∧
      (∀ name, other'.symbols.get? name = final.symbols.get? name) ∧
      records'.flatMap Record.placements = records.flatMap Record.placements ∧
      (Listing.bytes records').length = (Listing.bytes records).length := by
  obtain ⟨origin, body, rfl, hLabel, hStatement, hSteady⟩ := exists_origin hLines
  cases walk with
  | cons first others =>
      obtain ⟨rfl, value, rfl, hAnywhere⟩ :=
        State.exists_step_of_origin hLabel hStatement region.fixed first
      have hAlike : State.Alike { state with counter := value } { other with counter := value } :=
        ⟨rfl, hSymbols⟩
      obtain ⟨other', hWalk, hLast⟩ := hAlike.walk others
      refine ⟨_, other', .cons (hAnywhere other .exact .emit) hWalk, hLast.symbols, rfl, ?_⟩
      simp only [Listing.bytes_cons, List.length_append,
        Record.length_bytes other.counter state.counter]

/-- The names of two regions get the same values in either order, if no name is bound twice. -/
theorem exists_sizing_walk_swapped {first second : Region} {firsts seconds : List StreamLine}
    (hFirst : firsts.map StreamLine.text = first.lines)
    (hSecond : seconds.map StreamLine.text = second.lines)
    (hOnce : (boundNames (firsts ++ seconds)).Nodup)
    (walk : Walk .exact .sizing state (firsts ++ seconds) sizes final) :
    ∃ sizes' final', Walk .exact .sizing state (seconds ++ firsts) sizes' final' ∧
      ∀ name, final'.symbols.get? name = final.symbols.get? name := by
  obtain ⟨middle, early, late, rfl, hEarly, hLate⟩ := walk.split
  obtain ⟨late', middle', hLate', hLateNames⟩ := exists_sizing_walk hSecond hLate state
  obtain ⟨early', final', hEarly', hEarlyNames⟩ := exists_sizing_walk hFirst hEarly middle'
  refine ⟨_, final', hLate'.append hEarly', ?_⟩
  intro name
  by_cases hBound : name ∈ boundNames firsts
  · have hApart : name ∉ boundNames seconds := by
      intro hMem
      rw [boundNames, List.filterMap_append, List.nodup_append] at hOnce
      exact hOnce.2.2 name hBound name hMem rfl
    rw [hEarlyNames name (.inl hBound), hLate.get?_of_not_bound hApart]
  · rw [hEarly'.get?_of_not_bound hBound]
    exact hLateNames name (.inr (hEarly.get?_of_not_bound hBound).symm)

/-- Two regions that leave all names as they are can be emitted in the other order. -/
theorem exists_emitting_walk_swapped {first second : Region} {firsts seconds : List StreamLine}
    {middle : State} {early late : List Record}
    (hFirst : firsts.map StreamLine.text = first.lines)
    (hSecond : seconds.map StreamLine.text = second.lines)
    (hEarly : Walk .exact .emit state firsts early middle)
    (hLate : Walk .exact .emit middle seconds late final)
    (hMiddle : middle.symbols = state.symbols) (hFinal : final.symbols = state.symbols)
    (other : State) (hOther : ∀ name, other.symbols.get? name = state.symbols.get? name) :
    ∃ records other', Walk .exact .emit other (seconds ++ firsts) records other' ∧
      (∀ name, other'.symbols.get? name = final.symbols.get? name) ∧
      records.flatMap Record.placements =
        late.flatMap Record.placements ++ early.flatMap Record.placements ∧
      (Listing.bytes records).length = (Listing.bytes (early ++ late)).length := by
  rw [← hMiddle] at hOther
  obtain ⟨late', middle', hLate', hLateNames, hLatePlaced, hLateBytes⟩ :=
    exists_emitting_walk hSecond hLate hOther
  rw [hFinal] at hLateNames
  obtain ⟨early', other', hEarly', hEarlyNames, hEarlyPlaced, hEarlyBytes⟩ :=
    exists_emitting_walk hFirst hEarly hLateNames
  rw [hMiddle, ← hFinal] at hEarlyNames
  refine ⟨_, other', hLate'.append hEarly', hEarlyNames, ?_, ?_⟩
  · rw [List.flatMap_append, hLatePlaced, hEarlyPlaced]
  · simp only [Listing.bytes_append, List.length_append, hLateBytes, hEarlyBytes, Nat.add_comm]

end Region

/-- The lines of regions are swept as they are. -/
theorem Region.sweep_eq {first second : Region} {source : Text}
    (hSource : Text.lines source = first.lines ++ second.lines) :
    (sweep source).result = .ok (sourceLines source, .empty) := by
  apply Sweep.run_plain
  intro line hMem
  have hText : line.text ∈ Text.lines source :=
    map_text_sourceLines source ▸ List.mem_map_of_mem hMem
  rw [hSource, List.mem_append] at hText
  exact hText.elim (first.plain line.text) (second.plain line.text)

/-- What does not show line numbers is the same for records that differ in them alone. -/
theorem Record.flatMap_eq_of_unnumbered {β : Type} {f : Record → List β}
    {records others : List Record}
    (hBlind : ∀ record, f record.unnumbered = f record)
    (h : records.map Record.unnumbered = others.map Record.unnumbered) :
    records.flatMap f = others.flatMap f := by
  have hSame : ∀ list : List Record, (list.map Record.unnumbered).flatMap f = list.flatMap f := by
    intro list
    simp [List.flatMap_map, hBlind]
  rw [← hSame records, h, hSame others]

/-- Two regions that bind no name twice and place no words in the same cell can be exchanged. If
one order can be assembled then so can the other, to the same image with the same number of used
cells, and every name has the same value. The regions may refer to each other. -/
theorem regions_commute {first second : Region} {source swapped : Text} {sink : Sink}
    {assembly : Assembly} (hSource : Text.lines source = first.lines ++ second.lines)
    (hSwapped : Text.lines swapped = second.lines ++ first.lines)
    (hOnce : (boundNames (sourceLines source)).Nodup)
    (hApart : List.Disjoint
      (((Assembly.run .exact (.writer none) source).records.take first.lines.length).flatMap
        Record.cells)
      (((Assembly.run .exact (.writer none) source).records.drop first.lines.length).flatMap
        Record.cells))
    (hRun : (Assembly.run .exact sink source).result = .ok assembly) :
    ∃ assembly', (Assembly.run .exact sink swapped).result = .ok assembly' ∧
      assembly'.image = assembly.image ∧ assembly'.image.used = assembly.image.used ∧
      ∀ name, assembly'.symbols.get? name = assembly.symbols.get? name := by
  obtain ⟨stream, start, final, records, hPrepare, hEmitted, hTakes, rfl⟩ :=
    Assembly.run_eq_ok_iff.mp hRun
  rw [Assembly.records_run hPrepare hEmitted (Sink.takes_unlimited records)] at hApart
  obtain ⟨macros, sized, hStream, hSizeLines, rfl⟩ := Assembly.prepare_eq_ok_iff.mp hPrepare
  rw [Region.sweep_eq hSource] at hStream
  cases hStream
  obtain ⟨sizes, hSized⟩ := State.sizeLines_eq_ok_iff.mp hSizeLines
  obtain ⟨firsts, seconds, hLines, hFirst, hSecond⟩ :=
    List.map_eq_append_iff.mp ((map_text_sourceLines source).trans hSource)
  rw [hLines] at hOnce hEmitted hSized
  obtain ⟨middle, early, late, rfl, hEarly, hLate⟩ := hEmitted.split
  -- In the order given, the emitting pass leaves the table of the sizing pass as it is.
  have hMiddle : middle.symbols = sized.symbols :=
    (Overlay.initial hSized).symbols_of_walk hSized hEarly rfl hOnce
  have hFinal : final.symbols = sized.symbols := Overlay.symbols_eq hSized hEmitted
  -- In the other order, the sizing pass ends with the same names, so the emitting pass follows.
  obtain ⟨sizes', sized', hSized', hNames⟩ :=
    Region.exists_sizing_walk_swapped hFirst hSecond hOnce hSized
  obtain ⟨records, final', hEmitted', hSymbols, hPlaced, hBytes⟩ :=
    Region.exists_emitting_walk_swapped hFirst hSecond hEarly hLate hMiddle hFinal
      { sized' with counter := 0 } hNames
  have hTexts : (sourceLines swapped).map StreamLine.text =
      (seconds ++ firsts).map StreamLine.text := by
    rw [map_text_sourceLines, hSwapped, List.map_append, hFirst, hSecond]
  obtain ⟨_, hSizedAgain, _⟩ := hSized'.renumber hTexts
  obtain ⟨renumbered, hEmittedAgain, hRecords⟩ := hEmitted'.renumber hTexts
  have hTaken : sink.takes renumbered = true := by
    have hListing : Listing.bytes renumbered = Listing.bytes records :=
      Record.flatMap_eq_of_unnumbered (fun _ => rfl) hRecords
    rw [Sink.takes_eq_hasRoom, hListing, hBytes, ← Sink.takes_eq_hasRoom]
    exact hTakes
  have hImage : final'.image = final.image := by
    apply Image.ext_cell
    intro target
    have hLength : early.length = first.lines.length := by
      rw [← hFirst, ← hEarly.map_line, List.length_map, List.length_map]
    rw [Sink.keptOf, ← hLength, List.take_left, List.drop_left] at hApart
    rw [hEmitted'.cell_eq, hEmitted.cell_eq, hPlaced, List.flatMap_append, hSized'.image_eq,
      hSized.image_eq, lastPlaced_append_comm]
    rw [List.map_flatMap, List.map_flatMap]
    exact hApart.symm
  refine ⟨⟨final'.symbols, final'.image⟩, ?_, hImage, congrArg Image.used hImage, hSymbols⟩
  apply Assembly.run_eq_ok_iff.mpr
  refine ⟨_, _, final', renumbered, ?_, hEmittedAgain, hTaken, rfl⟩
  apply Assembly.prepare_eq_ok_iff.mpr
  have hSizeLines' := State.sizeLines_eq_ok_iff.mpr ⟨_, hSizedAgain⟩
  exact ⟨_, sized', Region.sweep_eq hSwapped, hSizeLines', rfl⟩

/-- A region whose words go to both ends of the image. -/
def outer : Region where
  origin := "ORG 0xFFFE".toList
  address := "0xFFFE".toList
  body := ["last: WORD main + 1, 2".toList, "mov r1, r0, main".toList]
  unlabelled := rfl
  begins := rfl
  fixed := rfl
  steady := by decide
  plain := by decide

def inner : Region where
  origin := "ORG 0x20".toList
  address := "0x20".toList
  body := ["main: add r1, r0, last".toList, "WORD main - last".toList]
  unlabelled := rfl
  begins := rfl
  fixed := rfl
  steady := by decide
  plain := by decide

def outerFirst : Text := Text.unlines (outer.lines ++ inner.lines)

def innerFirst : Text := Text.unlines (inner.lines ++ outer.lines)

/-- Each of these two regions mentions the label of the other one, so in either order one of them
refers forward. -/
theorem regions_commute_outer_inner :
    ∃ assembly assembly',
      (Assembly.run .exact (.writer none) outerFirst).result = .ok assembly ∧
      (Assembly.run .exact (.writer none) innerFirst).result = .ok assembly' ∧
      assembly'.image = assembly.image ∧ assembly'.image.used = assembly.image.used ∧
      assembly'.symbols.get? "last".toList = some 0xFFFE ∧
      assembly'.symbols.get? "main".toList = some 0x20 := by
  obtain ⟨assembly, hRun⟩ : ∃ assembly,
      (Assembly.run .exact (.writer none) outerFirst).result = .ok assembly :=
    exists_eq_ok (by decide +kernel)
  have hSource : Text.lines outerFirst = outer.lines ++ inner.lines := by decide
  have hSwapped : Text.lines innerFirst = inner.lines ++ outer.lines := by decide
  have hEarly : ((Assembly.run .exact (.writer none) outerFirst).records.take
      outer.lines.length).flatMap Record.cells = [0xFFFE, 0xFFFF, 0, 1] := by decide +kernel
  have hLate : ((Assembly.run .exact (.writer none) outerFirst).records.drop
      outer.lines.length).flatMap Record.cells = [0x20, 0x21, 0x22] := by decide +kernel
  have hApart : List.Disjoint [0xFFFE, 0xFFFF, 0, (1 : UInt16)] [0x20, 0x21, 0x22] := by
    simp [List.Disjoint]
  rw [← hEarly, ← hLate] at hApart
  obtain ⟨assembly', hRun', hImage, hUsed, hNames⟩ :=
    regions_commute hSource hSwapped (by decide) hApart hRun
  have hValues : (Assembly.run .exact (.writer none) outerFirst).result.toOption.map
      (fun assembly => ["last".toList, "main".toList].map assembly.symbols.get?) =
      some [some 0xFFFE, some 0x20] := by decide +kernel
  obtain ⟨hLast, hMain⟩ : assembly.symbols.get? "last".toList = some 0xFFFE ∧
      assembly.symbols.get? "main".toList = some 0x20 := by
    simpa [hRun, Except.toOption] using hValues
  exact ⟨assembly, assembly', hRun, hRun', hImage, hUsed, (hNames _).trans hLast,
    (hNames _).trans hMain⟩

end TwoPass
