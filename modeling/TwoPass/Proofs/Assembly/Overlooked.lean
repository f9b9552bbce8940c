import TwoPass.Proofs.Assembly.Step
import TwoPass.Proofs.Line.Parts

/-! Code that is passed over. A mnemonic is looked for in one place only: right behind the full stop
of a predicate, or else where the code starts. If no word starts there, the line counts as blank,
whatever else it has. So a blank behind the full stop takes an instruction out of the program, and
no error tells of it. Every other line with code is carried out or refused. -/
namespace TwoPass

/-- Whether a text starts with a word; the empty text does not. -/
def Text.startsWord : Text → Bool
  | [] => false
  | c :: _ => isWordChar c

theorem Text.splitWord_eq_nil_iff {s : Text} : (splitWord s).1 = [] ↔ startsWord s = false := by
  cases s with
  | nil => simp [splitWord, startsWord]
  | cons c rest => cases hc : isWordChar c <;> simp [splitWord, startsWord, hc]

namespace Line

/-- What a line has besides its comment and its label. -/
def code (text : Text) : Text := (splitLabel (stripComment text)).2

/-- Code without a word where its mnemonic is looked for. -/
inductive Overlooked : Text → Prop where
  /-- The code has no predicate, and it starts with something else than a word. -/
  | bare {c : Char} {rest : Text} (hWord : Text.isWordChar c = false)
      (hPrefix : ∀ token predicate after, (token, predicate) ∈ Predicate.spellings →
        c :: rest ≠ token ++ '.' :: after) : Overlooked (c :: rest)
  /-- Something else than a word follows the predicate. -/
  | predicated {token rest : Text} {predicate : Predicate}
      (hToken : (token, predicate) ∈ Predicate.spellings)
      (hWord : Text.startsWord rest = false) : Overlooked (token ++ '.' :: rest)

/-- Where code is not empty, it is overlooked exactly if no word is found behind its predicate. -/
theorem overlooked_iff {s : Text} (h : s ≠ []) :
    Overlooked s ↔ Text.startsWord (splitPredicate s).2 = false := by
  constructor
  · intro hOverlooked
    cases hOverlooked with
    | @bare c rest hWord hPrefix =>
        rcases splitPredicate_cases (c :: rest) with
          ⟨token, predicate, after, hToken, hEq, -⟩ | ⟨-, hSplit⟩
        · exact absurd hEq (hPrefix token predicate after hToken)
        · rw [hSplit]
          exact hWord
    | @predicated token rest predicate hToken hWord =>
        rw [splitPredicate_of_spelling hToken]
        exact hWord
  · intro hWord
    rcases splitPredicate_cases s with
      ⟨token, predicate, rest, hToken, rfl, hSplit⟩ | ⟨hPrefix, hSplit⟩
    · rw [hSplit] at hWord
      exact .predicated hToken hWord
    · rw [hSplit] at hWord
      obtain ⟨c, rest, rfl⟩ := List.exists_cons_of_ne_nil h
      exact .bare hWord hPrefix

theorem mnemonic_parse (text : Text) :
    (parse text).mnemonic = none ↔
      Text.startsWord (splitPredicate (Text.trimStart (code text))).2 = false := by
  rw [← Text.splitWord_eq_nil_iff, ← List.isEmpty_iff]
  unfold parse code
  dsimp only
  split
  · next hEmpty => exact ⟨fun _ => hEmpty, fun _ => rfl⟩
  · next hWord => exact ⟨fun hMnemonic => (Option.some_ne_none _ hMnemonic).elim, (absurd · hWord)⟩

theorem trimStart_code_ne_nil {text : Text} (h : ∃ c ∈ code text, Text.isBlank c = false) :
    Text.trimStart (code text) ≠ [] := by
  obtain ⟨c, hMem, hBlank⟩ := h
  intro hNil
  have hAll := List.dropWhile_eq_nil_iff.mp hNil c hMem
  rw [hBlank] at hAll
  cases hAll

/-- A line with a label that would otherwise define a constant, in either form. -/
def DefersToLabel (line : Line) : Prop :=
  line.label.isSome = true ∧
    (line.mnemonic = some "EQU".toList ∨ (equated? line.operandText).isSome = true)

/-- A line with a mnemonic asks for something, unless its label takes the place of a constant. -/
theorem defersToLabel_of_statement {line : Line} {mnemonic : Text}
    (hMnemonic : line.mnemonic = some mnemonic) (h : line.statement = .ok .blank) :
    line.DefersToLabel := by
  have hLabel : ∀ {name expression : Text}, line.constantOr name expression = .ok .blank →
      line.label.isSome = true := by
    intro name expression hConstant
    rcases constantOr_eq_ok_iff.mp hConstant with ⟨hSome, -⟩ | ⟨-, -, hBlank⟩
    · exact hSome
    · cases hBlank
  rw [statement, hMnemonic] at h
  dsimp only at h
  split at h
  · next hEqu => exact ⟨hLabel h, .inl (hEqu ▸ hMnemonic)⟩
  · repeat' split at h
    all_goals try cases h
    unfold instructionOrConstant at h
    split at h
    · split at h <;> cases h
    · split at h
      · next hEquated => exact ⟨hLabel h, .inr (by rw [hEquated]; rfl)⟩
      · cases h

end Line

section

variable (sizing : Sizing) (pass : Pass) (state : State) {line : StreamLine}

/-- A line without a mnemonic defines its label and does nothing else. -/
theorem result_step_of_no_mnemonic (h : (Line.parse line.text).mnemonic = none) :
    (state.step sizing pass line).result = .ok (state.labelled line, []) := by
  have hBlank : line.statement = .ok .blank := by
    rw [StreamLine.statement, Line.statement, h]
  exact State.step_eq_ok_iff.mpr ⟨.blank, hBlank, .blank pass (state.labelled line)⟩

/-- A line with a mnemonic is carried out or refused. -/
theorem exists_of_mnemonic {mnemonic : Text} (h : (Line.parse line.text).mnemonic = some mnemonic) :
    (∃ error, (state.step sizing pass line).result = .error error) ∨
      ∃ statement next words, line.statement = .ok statement ∧
        (state.step sizing pass line).result = .ok (next, words) ∧
        Performs sizing pass (state.labelled line) statement next words ∧
        (statement = .blank → (Line.parse line.text).DefersToLabel) := by
  cases hResult : (state.step sizing pass line).result with
  | error error => exact .inl ⟨error, rfl⟩
  | ok outcome =>
      obtain ⟨next, words⟩ := outcome
      obtain ⟨statement, hStatement, hPerforms⟩ := State.step_eq_ok_iff.mp hResult
      refine .inr ⟨statement, next, words, hStatement, rfl, hPerforms, ?_⟩
      rintro rfl
      exact Line.defersToLabel_of_statement h hStatement

/-- Code that is no comment and no label goes unread exactly if it is overlooked. Then the line is
processed without an error as if it were blank. Otherwise it has a mnemonic, and it is refused or
what it asks for is carried out; it asks for nothing only if its label takes the place of a
constant. -/
theorem code_unread_where_overlooked (hCode : ∃ c ∈ Line.code line.text, Text.isBlank c = false) :
    ((Line.parse line.text).mnemonic = none ↔
      Line.Overlooked (Text.trimStart (Line.code line.text))) ∧
    (Line.Overlooked (Text.trimStart (Line.code line.text)) →
      (state.step sizing pass line).result = .ok (state.labelled line, [])) ∧
    (¬Line.Overlooked (Text.trimStart (Line.code line.text)) →
      ∃ mnemonic, (Line.parse line.text).mnemonic = some mnemonic ∧
        ((∃ error, (state.step sizing pass line).result = .error error) ∨
          ∃ statement next words, line.statement = .ok statement ∧
            (state.step sizing pass line).result = .ok (next, words) ∧
            Performs sizing pass (state.labelled line) statement next words ∧
            (statement = .blank → (Line.parse line.text).DefersToLabel))) := by
  have hNone : (Line.parse line.text).mnemonic = none ↔
      Line.Overlooked (Text.trimStart (Line.code line.text)) := by
    rw [Line.mnemonic_parse, Line.overlooked_iff (Line.trimStart_code_ne_nil hCode)]
  refine ⟨hNone, fun hOverlooked => ?_, fun hSeen => ?_⟩
  · exact result_step_of_no_mnemonic sizing pass state (hNone.mpr hOverlooked)
  · obtain ⟨mnemonic, hMnemonic⟩ :=
      Option.ne_none_iff_exists'.mp fun hMissing => hSeen (hNone.mp hMissing)
    exact ⟨mnemonic, hMnemonic, exists_of_mnemonic sizing pass state hMnemonic⟩

/-- The blank behind the full stop costs the program an instruction, while the same line without it
places a word. -/
theorem code_unread_where_overlooked_spaced :
    (∃ c ∈ Line.code "z. mov r1, r2".toList, Text.isBlank c = false) ∧
      (Line.parse "z. mov r1, r2".toList).mnemonic = none ∧
      (State.initial.step .exact .emit ⟨1, "z. mov r1, r2".toList⟩).result =
        .ok (State.initial, []) ∧
      ((State.initial.step .exact .emit ⟨1, "z.mov r1, r2".toList⟩).result.toOption.map Prod.snd) =
        some [0x4021] := by
  have hCode : ∃ c ∈ Line.code "z. mov r1, r2".toList, Text.isBlank c = false :=
    ⟨'z', by decide, by decide⟩
  have hOverlooked : Line.Overlooked (Text.trimStart (Line.code "z. mov r1, r2".toList)) :=
    .predicated (show (['z'], Predicate.zero) ∈ Predicate.spellings by decide)
      (show Text.startsWord " mov r1, r2".toList = false by decide)
  obtain ⟨hNone, hUnread, -⟩ :=
    @code_unread_where_overlooked .exact .emit .initial ⟨1, "z. mov r1, r2".toList⟩ hCode
  refine ⟨hCode, hNone.mpr hOverlooked, hUnread hOverlooked, by decide +kernel⟩

end

end TwoPass
