import TwoPass.Proofs.Macro.Sweep

/-! What the sweep makes of a source, told without a sweep. The macros can be read off the lines:
each name has the parameters of the last line that opens a definition for it, and its body ends at
the next line that opens or closes any definition. A line of the source turns into a comment if it
delimits a definition or lies inside one, and is expanded otherwise. -/
namespace TwoPass

namespace Macro

/-- The macro that lines define under a name. Later definitions win, also over one that is still
open. -/
def definedIn? (name : Text) : List Text → Option Macro
  | [] => none
  | line :: rest =>
    (definedIn? name rest).or <|
      match definition? line with
      | some (opened, parameters) =>
        if opened = name then some ⟨name, parameters, rest.takeWhile (!delimits ·)⟩ else none
      | none => none

/-- A macro as lines define it: the parameters stand on the last line that opens a definition for
its name, and the body is what lies between that line and the next delimiter or the end. -/
def DefinedIn (lines : List Text) (m : Macro) : Prop :=
  ∃ front line back, lines = front ++ line :: back ∧
    definition? line = some (m.name, m.parameters) ∧
    (∀ later ∈ back, ∀ parameters, definition? later ≠ some (m.name, parameters)) ∧
    m.body = back.takeWhile (!delimits ·)

/-- Whether the last delimiter of some lines opens a definition, which then is still open. -/
def leaveOpen (lines : List Text) : Bool :=
  (lines.reverse.find? delimits).any fun line => (definition? line).isSome

variable {name line : Text} {rest lines : List Text} {m : Macro}

/-- A line that opens a definition delimits. -/
theorem delimits_of_definition? {opened : Text × List Text} (h : definition? line = some opened) :
    delimits line = true := by
  rw [delimits, h]
  rfl

/-- A line that does not open this definition does not matter for it. -/
theorem definedIn?_cons_of_ne (h : ∀ parameters, definition? line ≠ some (name, parameters)) :
    definedIn? name (line :: rest) = definedIn? name rest := by
  rw [definedIn?]
  cases hOpens : definition? line with
  | none => exact Option.or_none
  | some opened =>
      obtain ⟨opened, parameters⟩ := opened
      have hOther : opened ≠ name := by
        rintro rfl
        exact h parameters hOpens
      simp [hOther]

/-- A definition counts unless the name is defined again later. -/
theorem definedIn?_cons_of_opens {parameters : List Text}
    (h : definition? line = some (name, parameters)) :
    definedIn? name (line :: rest) =
      (definedIn? name rest).or (some ⟨name, parameters, rest.takeWhile (!delimits ·)⟩) := by
  rw [definedIn?, h]
  simp

/-- A name is defined exactly if some line opens a definition for it. -/
theorem definedIn?_isSome_iff :
    (definedIn? name lines).isSome = true ↔
      ∃ line ∈ lines, ∃ parameters, definition? line = some (name, parameters) := by
  induction lines with
  | nil => simp [definedIn?]
  | cons line rest ih =>
      by_cases hOpens : ∃ parameters, definition? line = some (name, parameters)
      · obtain ⟨parameters, hOpens⟩ := hOpens
        rw [definedIn?_cons_of_opens hOpens]
        simp [hOpens]
      · rw [definedIn?_cons_of_ne (not_exists.mp hOpens), ih]
        simp [hOpens]

/-- The last definition of a name is in the rest, or it is opened by the first line. -/
theorem definedIn_cons_iff :
    DefinedIn (line :: rest) m ↔ DefinedIn rest m ∨
      definition? line = some (m.name, m.parameters) ∧
        (∀ later ∈ rest, ∀ parameters, definition? later ≠ some (m.name, parameters)) ∧
        m.body = rest.takeWhile (!delimits ·) := by
  constructor
  · rintro ⟨front, opening, back, hLines, hOpening⟩
    cases front with
    | nil =>
        cases hLines
        exact .inr hOpening
    | cons first front =>
        cases hLines
        exact .inl ⟨front, opening, back, rfl, hOpening⟩
  · rintro (⟨front, opening, back, rfl, hOpening⟩ | hOpening)
    · exact ⟨line :: front, opening, back, rfl, hOpening⟩
    · exact ⟨[], line, rest, rfl, hOpening⟩

/-- Searching finds the last definition. -/
theorem definedIn?_eq_some_iff :
    definedIn? name lines = some m ↔ m.name = name ∧ DefinedIn lines m := by
  induction lines with
  | nil => simp [definedIn?, DefinedIn]
  | cons line rest ih =>
      rw [definedIn_cons_iff]
      by_cases hLater : (definedIn? name rest).isSome = true
      · -- The line does not count, because a later one opens a definition for the same name.
        have hRest : definedIn? name (line :: rest) = definedIn? name rest := by
          rw [definedIn?, Option.or_of_isSome hLater]
        obtain ⟨later, hMem, parameters, hOpens⟩ := definedIn?_isSome_iff.mp hLater
        rw [hRest, ih]
        constructor
        · rintro ⟨hName, hDefined⟩
          exact ⟨hName, .inl hDefined⟩
        · rintro ⟨rfl, hDefined | ⟨-, hLast, -⟩⟩
          · exact ⟨rfl, hDefined⟩
          · exact absurd hOpens (hLast later hMem parameters)
      · have hNone : definedIn? name rest = none := Option.not_isSome_iff_eq_none.mp hLater
        have hLast : ∀ later ∈ rest, ∀ parameters, definition? later ≠ some (name, parameters) := by
          intro later hMem parameters hOpens
          exact hLater (definedIn?_isSome_iff.mpr ⟨later, hMem, parameters, hOpens⟩)
        rw [hNone] at ih
        constructor
        · intro hFound
          by_cases hOpens : ∃ parameters, definition? line = some (name, parameters)
          · obtain ⟨parameters, hOpens⟩ := hOpens
            rw [definedIn?_cons_of_opens hOpens, hNone] at hFound
            cases hFound
            exact ⟨rfl, .inr ⟨hOpens, hLast, rfl⟩⟩
          · rw [definedIn?_cons_of_ne (not_exists.mp hOpens), hNone] at hFound
            cases hFound
        · rintro ⟨rfl, hDefined | ⟨hOpens, -, hBody⟩⟩
          · cases ih.mpr ⟨rfl, hDefined⟩
          · rw [definedIn?_cons_of_opens hOpens, hNone, ← hBody]
            rfl

/-- A table with the macros that lines define, and no others. The order of the entries is left
open. -/
def Collects (lines : List Text) (macros : MacroTable) : Prop :=
  ∀ name m, macros.get? name = some m ↔ m.name = name ∧ DefinedIn lines m

/-- A table that collects the definitions finds each of them. -/
theorem collects_iff {macros : MacroTable} :
    Collects lines macros ↔ ∀ name, macros.get? name = definedIn? name lines := by
  constructor
  · intro h name
    apply Option.ext
    intro m
    rw [h name m, definedIn?_eq_some_iff]
  · intro h name m
    rw [h name, definedIn?_eq_some_iff]

/-- Expansion looks names up and takes no other notice of the table. -/
theorem expandWithin_congr {macros other : MacroTable}
    (h : ∀ name, other.get? name = macros.get? name) (budget : Nat) (line : Text) :
    expandWithin other budget line = expandWithin macros budget line := by
  have hCall : ∀ line, callOf? other line = callOf? macros line := by
    intro line
    simp only [callOf?, h]
  induction budget generalizing line with
  | zero => rw [expandWithin, expandWithin, hCall]
  | succ budget ih =>
      have hBody : expandWithin other budget = expandWithin macros budget := funext ih
      rw [expandWithin, expandWithin, hCall]
      cases callOf? macros line with
      | none => rfl
      | some called =>
          dsimp only
          rw [hBody]

/-- No line vanishes in its expansion. -/
theorem ne_nil_of_expandWithin {macros : MacroTable} {budget : Nat} {texts : List Text}
    (h : (expandWithin macros budget line).result = .ok texts) : texts ≠ [] := by
  unfold expandWithin at h
  split at h
  · cases h
    exact List.cons_ne_nil _ _
  · next call m _ =>
      cases budget with
      | zero => cases h
      | succ budget =>
          simp only [Logged.result_bind, Logged.result_tell, ok_bind] at h
          obtain ⟨body, -, h⟩ := bind_eq_ok_iff.mp h
          cases h
          exact List.cons_ne_nil _ _

end Macro

namespace Sweep

variable {sweep next final : Sweep} {line : StreamLine}
  {lines front back out stream : List StreamLine}

/-- The macro that a name will have when some more texts have been taken in. -/
def expected? (sweep : Sweep) (texts : List Text) (name : Text) : Option Macro :=
  (Macro.definedIn? name texts).or <| (sweep.macros.get? name).map fun m =>
    if sweep.opened = some name then
      { m with body := m.body ++ texts.takeWhile (!Macro.delimits ·) }
    else m

theorem expected?_nil (sweep : Sweep) (name : Text) :
    sweep.expected? [] name = sweep.macros.get? name := by
  simp [expected?, Macro.definedIn?]

/-- What is to be expected does not change as lines are taken in. -/
theorem Takes.expected?_eq (h : sweep.Takes line next out) (texts : List Text) (name : Text) :
    next.expected? texts name = sweep.expected? (line.text :: texts) name := by
  cases h with
  | @opens opened parameters hOpens =>
      -- The line starts a new body and ends the one that was open, if any.
      have hDelimits := Macro.delimits_of_definition? hOpens
      by_cases hName : opened = name
      · subst hName
        rw [expected?, expected?, Macro.definedIn?_cons_of_opens hOpens]
        simp
      · have hOther : ∀ parameters, Macro.definition? line.text ≠ some (name, parameters) := by
          intro parameters hEq
          rw [hOpens] at hEq
          cases hEq
          exact hName rfl
        rw [expected?, expected?, Macro.definedIn?_cons_of_ne hOther]
        simp [hName, hDelimits]
  | closes hOpens hCloses =>
      have hDelimits : Macro.delimits line.text = true := by simp [Macro.delimits, hCloses]
      rw [expected?, expected?, Macro.definedIn?_cons_of_ne (by simp [hOpens])]
      simp [hDelimits]
  | @collects opened hPlain hOpened =>
      obtain ⟨hOpens, -⟩ := Macro.delimits_eq_false_iff.mp hPlain
      rw [expected?, expected?, Macro.definedIn?_cons_of_ne (by simp [hOpens])]
      by_cases hName : opened = name
      · subst hName
        simp [hOpened, hPlain, Function.comp_def]
      · simp [hOpened, hName]
  | expands hPlain hOpened =>
      obtain ⟨hOpens, -⟩ := Macro.delimits_eq_false_iff.mp hPlain
      rw [expected?, expected?, Macro.definedIn?_cons_of_ne (by simp [hOpens])]
      simp [hOpened]

/-- Only delimiters open or close a definition. -/
theorem Takes.opened_isSome (h : sweep.Takes line next out) :
    next.opened.isSome =
      if Macro.delimits line.text = true then (Macro.definition? line.text).isSome
      else sweep.opened.isSome := by
  cases h with
  | opens hOpens => simp [Macro.delimits_of_definition? hOpens, hOpens]
  | closes hOpens hCloses => simp [Macro.delimits, hOpens, hCloses]
  | collects hPlain => simp [hPlain]
  | expands hPlain => simp [hPlain]

/-- All that comes out of a line has its number. -/
theorem Takes.number_of_mem (h : sweep.Takes line next out) :
    ∀ entry ∈ out, entry.number = line.number := by
  cases h with
  | opens | closes | collects => simp [asComment]
  | expands => simp

/-- Every line leaves something in the stream. -/
theorem Takes.ne_nil (h : sweep.Takes line next out) : out ≠ [] := by
  cases h with
  | opens | closes | collects => exact List.cons_ne_nil _ _
  | expands _ _ hTexts =>
      rw [Ne, List.map_eq_nil_iff]
      exact Macro.ne_nil_of_expandWithin hTexts

/-- Lines of definitions are left as comments. -/
theorem Takes.eq_comment (h : sweep.Takes line next out)
    (hPart : Macro.delimits line.text = true ∨ sweep.opened.isSome = true) :
    out = [asComment line] := by
  cases h with
  | opens | closes | collects => rfl
  | expands hPlain hOpened => simp [hPlain, hOpened] at hPart

/-- All other lines are expanded with the table at hand. -/
theorem Takes.exists_expansion (h : sweep.Takes line next out)
    (hPlain : Macro.delimits line.text = false) (hOpened : sweep.opened.isSome = false) :
    ∃ texts, (Macro.expand sweep.macros line.text).result = .ok texts ∧
      out = texts.map fun text => { line with text } := by
  cases h with
  | opens hOpens =>
      rw [Macro.delimits_of_definition? hOpens] at hPlain
      cases hPlain
  | closes _ hCloses => simp [Macro.delimits, hCloses] at hPlain
  | collects _ hName => simp [hName] at hOpened
  | expands _ _ hTexts => exact ⟨_, hTexts, rfl⟩

/-- Taking in lines one after the other, with the stream that they lead to. -/
inductive TakesAll : Sweep → List StreamLine → List StreamLine → Sweep → Prop where
  | nil (sweep : Sweep) : TakesAll sweep [] [] sweep
  | cons {sweep next final : Sweep} {line : StreamLine} {rest out stream : List StreamLine}
      (first : sweep.Takes line next out) (others : TakesAll next rest stream final) :
      TakesAll sweep (line :: rest) (out ++ stream) final

/-- A sweep succeeds exactly if each of its steps does. -/
theorem run_eq_ok_iff {macros : MacroTable} :
    (sweep.run lines).result = .ok (stream, macros) ↔
      ∃ final, TakesAll sweep lines stream final ∧ final.macros = macros := by
  induction lines generalizing sweep stream with
  | nil =>
      constructor
      · intro h
        cases h
        exact ⟨sweep, .nil sweep, rfl⟩
      · rintro ⟨final, hAll, rfl⟩
        cases hAll
        rfl
  | cons line rest ih =>
      rw [run_cons_eq_ok_iff]
      constructor
      · rintro ⟨next, first, others, hTakes, hRest, rfl⟩
        obtain ⟨final, hAll, hMacros⟩ := ih.mp hRest
        exact ⟨final, .cons hTakes hAll, hMacros⟩
      · rintro ⟨final, hAll, hMacros⟩
        cases hAll with
        | cons first others =>
            exact ⟨_, _, _, first, ih.mpr ⟨final, others, hMacros⟩, rfl⟩

namespace TakesAll

/-- A sweep passes through every line. -/
theorem split (h : TakesAll sweep (front ++ line :: back) stream final) :
    ∃ before next early out late, TakesAll sweep front early before ∧
      before.Takes line next out ∧ TakesAll next back late final ∧
      stream = early ++ (out ++ late) := by
  induction front generalizing sweep stream with
  | nil =>
      cases h with
      | cons first others => exact ⟨sweep, _, [], _, _, .nil sweep, first, others, rfl⟩
  | cons earlier front ih =>
      cases h with
      | @cons _ _ _ _ _ written _ first others =>
          obtain ⟨before, next, early, out, late, hFront, hLine, hBack, rfl⟩ := ih others
          exact ⟨before, next, written ++ early, out, late, .cons first hFront, hLine, hBack,
            (List.append_assoc ..).symm⟩

/-- By induction on the steps: the table holds what the lines so far define. -/
theorem expected?_eq (h : TakesAll sweep lines stream final) (name : Text) :
    final.macros.get? name = sweep.expected? (lines.map StreamLine.text) name := by
  induction h with
  | nil sweep => exact (sweep.expected?_nil name).symm
  | cons first _ ih => rw [ih, first.expected?_eq, List.map_cons]

/-- A sweep from the start collects what the lines define. -/
theorem collects (h : TakesAll start lines stream final) :
    Macro.Collects (lines.map StreamLine.text) final.macros := by
  apply Macro.collects_iff.mpr
  intro name
  rw [h.expected?_eq, expected?]
  exact Option.or_none

/-- Whether a definition is open depends on the last line that delimits. -/
theorem opened_isSome (h : TakesAll sweep lines stream final) :
    final.opened.isSome =
      (((lines.map StreamLine.text).reverse.find? Macro.delimits).map fun line =>
        (Macro.definition? line).isSome).getD sweep.opened.isSome := by
  induction h with
  | nil sweep => rfl
  | @cons sweep next final line rest out stream first others ih =>
      rw [ih, first.opened_isSome, List.map_cons, List.reverse_cons, List.find?_append]
      cases ((rest.map StreamLine.text).reverse.find? Macro.delimits) with
      | some later => rfl
      | none => cases hDelimits : Macro.delimits line.text <;> simp [hDelimits]

/-- At the end of a source it is open if its last delimiter opens one. -/
theorem opened_isSome_start (h : TakesAll start lines stream final) :
    final.opened.isSome = Macro.leaveOpen (lines.map StreamLine.text) := by
  rw [h.opened_isSome, Macro.leaveOpen]
  cases ((lines.map StreamLine.text).reverse.find? Macro.delimits) <;> rfl

/-- The numbers in the stream are those of the lines. -/
theorem mem_numbers_iff (h : TakesAll sweep lines stream final) {number : Nat} :
    number ∈ stream.map StreamLine.number ↔ number ∈ lines.map StreamLine.number := by
  induction h with
  | nil => simp
  | @cons sweep next final line rest out stream first others ih =>
      have hOut : number ∈ out.map StreamLine.number ↔ number = line.number := by
        constructor
        · intro hMem
          obtain ⟨entry, hEntry, rfl⟩ := List.mem_map.mp hMem
          exact first.number_of_mem entry hEntry
        · rintro rfl
          obtain ⟨entry, hEntry⟩ := List.exists_mem_of_ne_nil _ first.ne_nil
          exact List.mem_map.mpr ⟨entry, hEntry, first.number_of_mem entry hEntry⟩
      rw [List.map_append, List.mem_append, hOut, ih, List.map_cons, List.mem_cons]

/-- A stream keeps to the order of its lines. -/
theorem numbers_sorted (h : TakesAll sweep lines stream final)
    (hSorted : (lines.map StreamLine.number).Pairwise (· ≤ ·)) :
    (stream.map StreamLine.number).Pairwise (· ≤ ·) := by
  induction h with
  | nil => exact .nil
  | @cons sweep next final line rest out stream first others ih =>
      rw [List.map_cons, List.pairwise_cons] at hSorted
      rw [List.map_append, List.pairwise_append]
      refine ⟨?_, ih hSorted.2, ?_⟩
      · rw [List.pairwise_map]
        apply List.pairwise_of_forall_mem_list
        intro a ha b hb
        exact Nat.le_of_eq ((first.number_of_mem a ha).trans (first.number_of_mem b hb).symm)
      · intro a ha b hb
        obtain ⟨entry, hEntry, rfl⟩ := List.mem_map.mp ha
        rw [first.number_of_mem entry hEntry]
        exact hSorted.1 b (others.mem_numbers_iff.mp hb)

/-- Where no two lines share a number, the entries with the number of a line are what came out of
it. -/
theorem filter_number (h : TakesAll sweep (front ++ line :: back) stream final)
    (hNumbers : ((front ++ line :: back).map StreamLine.number).Pairwise (· < ·)) :
    ∃ before next early out, TakesAll sweep front early before ∧ before.Takes line next out ∧
      (stream.filter fun entry => entry.number = line.number) = out := by
  obtain ⟨before, next, early, out, late, hFront, hLine, hBack, rfl⟩ := h.split
  refine ⟨before, next, early, out, hFront, hLine, ?_⟩
  simp only [List.map_append, List.map_cons, List.pairwise_append, List.pairwise_cons] at hNumbers
  obtain ⟨-, ⟨hAfter, -⟩, hBefore⟩ := hNumbers
  have hEarly : (early.filter fun entry => entry.number = line.number) = [] := by
    apply List.filter_eq_nil_iff.mpr
    intro entry hMem
    have hNumber := hFront.mem_numbers_iff.mp (List.mem_map_of_mem hMem)
    have hLess := hBefore _ hNumber _ (List.mem_cons_self ..)
    simp only [decide_eq_true_eq]
    omega
  have hLate : (late.filter fun entry => entry.number = line.number) = [] := by
    apply List.filter_eq_nil_iff.mpr
    intro entry hMem
    have hMore := hAfter _ (hBack.mem_numbers_iff.mp (List.mem_map_of_mem hMem))
    simp only [decide_eq_true_eq]
    omega
  have hOut : (out.filter fun entry => entry.number = line.number) = out := by
    apply List.filter_eq_self.mpr
    intro entry hMem
    simp [hLine.number_of_mem entry hMem]
  rw [List.filter_append, List.filter_append, hEarly, hLate, hOut, List.nil_append, List.append_nil]

end TakesAll

end Sweep

/-- Lines are numbered from one. -/
theorem map_number_sourceLines (source : Text) :
    (sourceLines source).map StreamLine.number = List.range' 1 (Text.lines source).length := by
  rw [sourceLines, List.map_map]
  exact List.zipIdx_map_snd 1 (Text.lines source)

theorem exists_sourceLines_eq {source line : Text} {k : Nat}
    (h : (Text.lines source)[k]? = some line) :
    ∃ back, sourceLines source = (sourceLines source).take k ++ ⟨k + 1, line⟩ :: back := by
  have hAt : (sourceLines source)[k]? = some ⟨k + 1, line⟩ := by
    simp [sourceLines, List.getElem?_zipIdx, h, Nat.add_comm]
  obtain ⟨hLength, hEq⟩ := List.getElem?_eq_some_iff.mp hAt
  refine ⟨(sourceLines source).drop (k + 1), ?_⟩
  rw [← hEq, ← List.drop_eq_getElem_cons hLength, List.take_append_drop]

/-- What the sweep collects and what it emits. The macros are those that the lines define, and a
name has one exactly if some line opens a definition for it. A line that delimits a definition or
lies inside one leads to a comment with its text; any other line leads to its expansion under the
macros of the lines in front of it, whichever table holds these. All of this keeps to the order of
the source, and no line is left out. -/
theorem sweep_collects_and_expands {source : Text} {stream : List StreamLine} {macros : MacroTable}
    (hSweep : (sweep source).result = .ok (stream, macros)) :
    Macro.Collects (Text.lines source) macros ∧
    (∀ name, (macros.get? name).isSome = true ↔
      ∃ line ∈ Text.lines source, ∃ parameters,
        Macro.definition? line = some (name, parameters)) ∧
    (∀ k line, (Text.lines source)[k]? = some line →
      (Macro.delimits line = true ∨ Macro.leaveOpen ((Text.lines source).take k) = true →
        (stream.filter fun entry => entry.number = k + 1) = [⟨k + 1, '#' :: ' ' :: line⟩]) ∧
      (Macro.delimits line = false → Macro.leaveOpen ((Text.lines source).take k) = false →
        (∃ table, Macro.Collects ((Text.lines source).take k) table) ∧
        ∃ texts, (stream.filter fun entry => entry.number = k + 1) =
            texts.map (fun text => ⟨k + 1, text⟩) ∧
          ∀ table, Macro.Collects ((Text.lines source).take k) table →
            (Macro.expand table line).result = .ok texts)) ∧
    (stream.map StreamLine.number).Pairwise (· ≤ ·) ∧
    ∀ number, number ∈ stream.map StreamLine.number ↔
      1 ≤ number ∧ number ≤ (Text.lines source).length := by
  obtain ⟨final, hAll, rfl⟩ := Sweep.run_eq_ok_iff.mp hSweep
  have hCollects := hAll.collects
  rw [map_text_sourceLines] at hCollects
  refine ⟨hCollects, ?_, ?_, ?_, ?_⟩
  · intro name
    rw [Macro.collects_iff.mp hCollects name, Macro.definedIn?_isSome_iff]
  · intro k line hAt
    obtain ⟨back, hLines⟩ := exists_sourceLines_eq hAt
    have hNumbers : ((sourceLines source).map StreamLine.number).Pairwise (· < ·) := by
      rw [map_number_sourceLines]
      exact List.pairwise_lt_range'
    rw [hLines] at hAll hNumbers
    obtain ⟨before, next, early, out, hFront, hLine, hOut⟩ := hAll.filter_number hNumbers
    have hTexts : ((sourceLines source).take k).map StreamLine.text =
        (Text.lines source).take k := by
      rw [List.map_take, map_text_sourceLines]
    have hTable := hFront.collects
    have hOpened := hFront.opened_isSome_start
    rw [hTexts] at hTable hOpened
    rw [← hOpened, hOut]
    refine ⟨hLine.eq_comment, ?_⟩
    intro hPlain hClosed
    obtain ⟨texts, hExpand, rfl⟩ := hLine.exists_expansion hPlain hClosed
    refine ⟨⟨_, hTable⟩, texts, rfl, ?_⟩
    intro table hOther
    -- The sweep's own table is only one of those that hold the macros so far.
    have hSame : ∀ name, table.get? name = before.macros.get? name := by
      intro name
      rw [Macro.collects_iff.mp hOther name, Macro.collects_iff.mp hTable name]
    rw [Macro.expand, Macro.expandWithin_congr hSame]
    exact hExpand
  · apply hAll.numbers_sorted
    rw [map_number_sourceLines]
    exact List.pairwise_le_range'
  · intro number
    rw [hAll.mem_numbers_iff, map_number_sourceLines, List.mem_range'_1]
    omega

/-- A program that opens a definition inside another one, has a closing line where none is open,
defines a name again and leaves its last definition open. The inner definition has no name. -/
def redefining : Text :=
  ("MACRO f(a)\nWORD a\nMACRO (b)\nf(1)\nENDMACRO\nf(7)\nENDMACRO\nMACRO f(x, y)\nWORD x\n" ++
    "ENDMACRO\nf(8)\nMACRO g()\nf(9)").toList

def redefiningLines : List Text :=
  ["MACRO f(a)", "WORD a", "MACRO (b)", "f(1)", "ENDMACRO", "f(7)", "ENDMACRO", "MACRO f(x, y)",
    "WORD x", "ENDMACRO", "f(8)", "MACRO g()", "f(9)"].map String.toList

/-- The name `f` ends up with its second definition, but the call on line six is expanded under the
first one, whose body stops short of the inner definition. The call on the last line is part of a
body. -/
theorem sweep_collects_and_expands_redefining :
    Text.lines redefining = redefiningLines ∧
    ∃ stream macros, (sweep redefining).result = .ok (stream, macros) ∧
      macros.get? ['f'] = some ⟨['f'], [['x'], ['y']], ["WORD x".toList]⟩ ∧
      macros.get? [] = some ⟨[], [['b']], ["f(1)".toList]⟩ ∧
      (stream.filter fun entry => entry.number = 13) = [⟨13, "# f(9)".toList⟩] ∧
      ∃ table texts, table.get? ['f'] = some ⟨['f'], [['a']], ["WORD a".toList]⟩ ∧
        (Macro.expand table "f(7)".toList).result = .ok texts ∧
        (stream.filter fun entry => entry.number = 6) = texts.map (fun text => ⟨6, text⟩) := by
  have hLines : Text.lines redefining = redefiningLines := by decide +kernel
  obtain ⟨⟨stream, macros⟩, hSweep⟩ : ∃ swept, (sweep redefining).result = .ok swept :=
    exists_eq_ok (by decide +kernel)
  obtain ⟨hCollects, -, hEntries, -, -⟩ := sweep_collects_and_expands hSweep
  rw [hLines] at hCollects hEntries
  obtain ⟨⟨table, hTable⟩, texts, hSix, hExpand⟩ :=
    (hEntries 5 "f(7)".toList (by decide +kernel)).2 (by decide +kernel) (by decide +kernel)
  refine ⟨hLines, stream, macros, hSweep, ?_, ?_, ?_, table, texts, ?_, hExpand table hTable, hSix⟩
  · exact (hCollects _ _).mpr (Macro.definedIn?_eq_some_iff.mp (by decide +kernel))
  · exact (hCollects _ _).mpr (Macro.definedIn?_eq_some_iff.mp (by decide +kernel))
  · exact (hEntries 12 "f(9)".toList (by decide +kernel)).1 (by decide +kernel)
  · exact (hTable _ _).mpr (Macro.definedIn?_eq_some_iff.mp (by decide +kernel))

end TwoPass
