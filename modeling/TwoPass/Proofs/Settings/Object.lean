import TwoPass.Proofs.Json.Grammar
import TwoPass.Proofs.Json.Written
import TwoPass.Settings.Reading

/-! Objects of settings. Their members may come in any order, may be spelled in any way and may have
space around them, and there may be members with other keys between them. A key is a text, so it has
no half of a surrogate pair without the other half. -/
namespace TwoPass.Settings

open Json

/-- What a member of an object says. Members with other keys than the two known ones say nothing. -/
inductive Entry where
  | sizing (choice : Sizing)
  | wordsPerLine (n : UInt64)
  | other (key : Text) (hKey : key ∉ ["sizing".toList, "words_per_line".toList])

namespace Entry

def key : Entry → Text
  | .sizing _ => "sizing".toList
  | .wordsPerLine _ => "words_per_line".toList
  | .other key _ => key

def sizing? : Entry → Option Sizing
  | .sizing choice => some choice
  | _ => none

def wordsPerLine? : Entry → Option UInt64
  | .wordsPerLine n => some n
  | _ => none

/-- The texts of the value of a member. A way of measuring is its word as a string, or an object
with that word as its only key and the value null. Behind another key, all values are allowed. -/
inductive Value : Entry → Text → Prop where
  | word {sizing : Sizing} {s : Text} (hWord : Spells sizing.label s) :
      Value (.sizing sizing) ('"' :: (s ++ ['"']))
  | variant {sizing : Sizing} {inner s behindKey front behind : Text} (hInner : Blank inner)
      (hWord : Spells sizing.label s) (hBehindKey : Blank behindKey) (hFront : Blank front)
      (hBehind : Blank behind) :
      Value (.sizing sizing) ('\x7b' :: (inner ++ '"' :: (s ++ '"' :: (behindKey ++ ':' ::
        (front ++ ("null".toList ++ (behind ++ ['\x7d'])))))))
  | count {n : UInt64} : Value (.wordsPerLine n) (Nat.toDigits 10 n.toNat)
  | any {key s : Text} {hKey : key ∉ ["sizing".toList, "words_per_line".toList]}
      (hValue : Grammar .value s) : Value (.other key hKey) s

end Entry

/-- The members between the braces of an object. -/
inductive Members : List Entry → Text → Prop where
  | last {entry : Entry} {key behindKey front value behind : Text} (hKey : Spells entry.key key)
      (hBehindKey : Blank behindKey) (hFront : Blank front) (hValue : entry.Value value)
      (hBehind : Blank behind) :
      Members [entry] ('"' :: (key ++ '"' :: (behindKey ++ ':' :: (front ++ (value ++ behind)))))
  | next {entry : Entry} {entries : List Entry} {key behindKey front value behind gap others : Text}
      (hKey : Spells entry.key key) (hBehindKey : Blank behindKey) (hFront : Blank front)
      (hValue : entry.Value value) (hBehind : Blank behind) (hGap : Blank gap)
      (hOthers : Members entries others) :
      Members (entry :: entries) ('"' :: (key ++ '"' :: (behindKey ++ ':' :: (front ++ (value ++
        (behind ++ ',' :: (gap ++ others)))))))

/-- A whole text that is an object with such members, with space around it. -/
inductive Object : List Entry → Text → Prop where
  | empty {front inner behind : Text} (hFront : Blank front) (hInner : Blank inner)
      (hBehind : Blank behind) : Object [] (front ++ '\x7b' :: (inner ++ '\x7d' :: behind))
  | members {entries : List Entry} {front inner s behind : Text} (hFront : Blank front)
      (hInner : Blank inner) (hMembers : Members entries s) (hBehind : Blank behind) :
      Object entries (front ++ '\x7b' :: (inner ++ (s ++ '\x7d' :: behind)))

/-! One member. -/

section

variable {entry : Entry} {behindKey front s rest : Text}

/-- A sizing is read back from its label. -/
theorem ofLabel?_label (sizing : Sizing) : Sizing.ofLabel? sizing.label = some sizing := by
  cases sizing <;> decide

theorem sizingOf_label (sizing : Sizing) (rest : Text) :
    sizingOf sizing.label rest = .ok sizing := by
  rw [sizingOf, ofLabel?_label]

theorem colon_append (hGap : Blank behindKey) (rest : Text) :
    colon (behindKey ++ ':' :: rest) = .ok rest := by
  simp only [colon, skipSpace_token hGap (c := ':') (by decide)]

/-- A sizing may be a plain string. -/
theorem readSizing_word {choice : Sizing} (hWord : Spells choice.label s) (hFront : Blank front)
    (rest : Text) : readSizing (front ++ '"' :: (s ++ '"' :: rest)) = .ok (choice, rest) := by
  have hQuote := skipSpace_token hFront (c := '"') (by decide) (s ++ '"' :: rest)
  simp only [readSizing, hQuote, string_of_spells hWord, ok_bind, sizingOf_label]
  rfl

/-- It may also be an object with the label as its only key, and null. -/
theorem readSizing_variant {choice : Sizing} {inner beforeNull behind : Text}
    (hFront : Blank front) (hInner : Blank inner) (hWord : Spells choice.label s)
    (hBehindKey : Blank behindKey) (hBeforeNull : Blank beforeNull) (hBehind : Blank behind)
    (rest : Text) :
    readSizing (front ++ '\x7b' :: (inner ++ '"' :: (s ++ '"' :: (behindKey ++ ':' ::
      (beforeNull ++ ("null".toList ++ (behind ++ '\x7d' :: rest))))))) = .ok (choice, rest) := by
  have hNull : skipSpace (beforeNull ++ ("null".toList ++ (behind ++ '\x7d' :: rest))) =
      'n' :: ("ull".toList ++ (behind ++ '\x7d' :: rest)) :=
    skipSpace_token hBeforeNull (by decide) _
  have hEnd := skipSpace_token hBehind (c := '\x7d') (by decide) rest
  simp only [readSizing, skipSpace_token hFront (c := '\x7b') (by decide),
    skipSpace_token hInner (c := '"') (by decide), string_of_spells hWord, ok_bind, sizingOf_label,
    colon_append hBehindKey, hNull, keyword_append, hEnd]
  rfl

/-- Words per line are a number of 64 bits. -/
theorem readWordsPerLine_toDigits (n : UInt64) (hFront : Blank front) (hRest : EndsNumber rest) :
    readWordsPerLine (front ++ (Nat.toDigits 10 n.toNat ++ rest)) = .ok (n, rest) := by
  obtain ⟨c, more, hCons, hStart⟩ := (spellsNumeral_toDigits n.toNat).exists_cons
  have hNumber := number_toDigits n hRest
  rw [hCons, List.cons_append] at hNumber ⊢
  simp only [readWordsPerLine, skipSpace_token hFront (isSpace_of_isDigit hStart), if_pos hStart,
    hNumber, ok_bind]

/-- What a draft and one more entry say together. -/
def Draft.add (draft : Draft) (entry : Entry) : Draft :=
  ⟨draft.sizing.or entry.sizing?, draft.wordsPerLine.or entry.wordsPerLine?⟩

/-- The first sizing is taken into the draft. -/
theorem readValue_sizing {draft : Draft} {choice : Sizing} {text : Text}
    (hNew : draft.sizing = none) (hBehindKey : Blank behindKey)
    (hChoice : readSizing text = .ok (choice, rest)) :
    readValue draft "sizing".toList (behindKey ++ ':' :: text) =
      .ok (draft.add (.sizing choice), rest) := by
  rw [readValue, if_pos rfl, hNew, if_neg (by decide), colon_append hBehindKey, ok_bind, hChoice,
    ok_bind]
  simp only [Draft.add, Entry.sizing?, Entry.wordsPerLine?, hNew, Option.none_or, Option.or_none]
  rfl

/-- So is the first number of words. -/
theorem readValue_wordsPerLine {draft : Draft} {n : UInt64} {text : Text}
    (hNew : draft.wordsPerLine = none) (hBehindKey : Blank behindKey)
    (hCount : readWordsPerLine text = .ok (n, rest)) :
    readValue draft "words_per_line".toList (behindKey ++ ':' :: text) =
      .ok (draft.add (.wordsPerLine n), rest) := by
  rw [readValue, if_neg (by decide), if_pos rfl, hNew, if_neg (by decide),
    colon_append hBehindKey, ok_bind, hCount, ok_bind]
  simp only [Draft.add, Entry.sizing?, Entry.wordsPerLine?, hNew, Option.none_or, Option.or_none]
  rfl

/-- Other members are skipped, whatever their value. -/
theorem readValue_other {draft : Draft} {key text : Text}
    (hKey : key ∉ ["sizing".toList, "words_per_line".toList]) (hBehindKey : Blank behindKey)
    (hSkip : skipValue text = .ok rest) :
    readValue draft key (behindKey ++ ':' :: text) = .ok (draft.add (.other key hKey), rest) := by
  obtain ⟨hSizing, hWords⟩ : key ≠ "sizing".toList ∧ key ≠ "words_per_line".toList := by
    simpa only [List.mem_cons, List.not_mem_nil, or_false, not_or] using hKey
  rw [readValue, if_neg hSizing, if_neg hWords, colon_append hBehindKey, ok_bind, hSkip, ok_bind]
  simp only [Draft.add, Entry.sizing?, Entry.wordsPerLine?, Option.or_none]
  rfl

/-- The step for one member: what the draft has not said yet is read, and what is not known is
skipped. -/
theorem readValue_of_value {draft : Draft}
    (hSizing : entry.sizing?.isSome = true → draft.sizing = none)
    (hWords : entry.wordsPerLine?.isSome = true → draft.wordsPerLine = none)
    (hBehindKey : Blank behindKey) (hFront : Blank front) (hValue : entry.Value s)
    (hRest : EndsNumber rest) :
    readValue draft entry.key (behindKey ++ ':' :: (front ++ (s ++ rest))) =
      .ok (draft.add entry, rest) := by
  cases hValue with
  | word hWord =>
      refine readValue_sizing (hSizing rfl) hBehindKey ?_
      simp only [List.cons_append, List.append_assoc, List.nil_append]
      exact readSizing_word hWord hFront rest
  | variant hInner hWord hBehindWord hBeforeNull hBehind =>
      refine readValue_sizing (hSizing rfl) hBehindKey ?_
      simp only [List.cons_append, List.append_assoc, List.nil_append]
      exact readSizing_variant hFront hInner hWord hBehindWord hBeforeNull hBehind rest
  | count =>
      exact readValue_wordsPerLine (hWords rfl) hBehindKey
        (readWordsPerLine_toDigits _ hFront hRest)
  | any hValue =>
      exact readValue_other _ hBehindKey (skipValue_of_grammar hFront hValue hRest)

end

/-! All members. -/

/-- With the entries added to what it says already, the draft says what the final one does, and it
says nothing twice. -/
structure Draft.Completes (draft : Draft) (entries : List Entry) (final : Draft) : Prop where
  sizing : draft.sizing.toList ++ entries.filterMap Entry.sizing? = final.sizing.toList
  wordsPerLine :
    draft.wordsPerLine.toList ++ entries.filterMap Entry.wordsPerLine? = final.wordsPerLine.toList

namespace Draft.Completes

variable {draft final : Draft} {entry : Entry} {entries : List Entry}

theorem toList_inj {α : Type} {first second : Option α} (h : first.toList = second.toList) :
    first = second := by
  have hHead : ∀ o : Option α, o.toList.head? = o := by rintro (_ | a) <;> rfl
  rw [← hHead first, h, hHead]

/-- A draft that nothing is missing from is the final one. -/
theorem eq_final (h : draft.Completes [] final) : draft = final := by
  obtain ⟨hSizing, hWords⟩ := h
  rw [List.filterMap_nil, List.append_nil] at hSizing hWords
  obtain ⟨sizing, wordsPerLine⟩ := draft
  rw [Draft.mk.injEq]
  exact ⟨toList_inj hSizing, toList_inj hWords⟩

/-- An option and then another one, of which together there is at most one. -/
theorem or_toList {α : Type} {first second all : Option α} {others : List α}
    (h : first.toList ++ (second.toList ++ others) = all.toList) :
    (second.isSome = true → first = none) ∧ (first.or second).toList ++ others = all.toList := by
  cases first with
  | none => exact ⟨fun _ => rfl, h⟩
  | some a =>
      cases second with
      | none => exact ⟨nofun, h⟩
      | some b => cases all <;> simp at h

theorem filterMap_cons {α : Type} (f : Entry → Option α) (entry : Entry) (entries : List Entry) :
    (entry :: entries).filterMap f = (f entry).toList ++ entries.filterMap f := by
  cases hEntry : f entry <;> simp [hEntry]

/-- What completes a draft with one more member completes the draft that has taken it in, and the
member repeats nothing. -/
theorem step (h : draft.Completes (entry :: entries) final) :
    (entry.sizing?.isSome = true → draft.sizing = none) ∧
      (entry.wordsPerLine?.isSome = true → draft.wordsPerLine = none) ∧
      (draft.add entry).Completes entries final := by
  obtain ⟨hSizing, hWords⟩ := h
  rw [filterMap_cons] at hSizing hWords
  obtain ⟨hNewSizing, hSizing⟩ := or_toList hSizing
  obtain ⟨hNewWords, hWords⟩ := or_toList hWords
  exact ⟨hNewSizing, hNewWords, hSizing, hWords⟩

end Draft.Completes

section

variable {draft said : Draft} {rounds : Nat} {s key afterKey afterValue more rest : Text}

/-- The last member closes the object. -/
theorem readMembers_last (hKey : string s = .ok (key, afterKey))
    (hValue : readValue draft key afterKey = .ok (said, afterValue))
    (hEnd : skipSpace afterValue = '\x7d' :: rest) :
    readMembers (rounds + 1) draft s = .ok (said, rest) := by
  simp only [readMembers, hKey, ok_bind, hValue, hEnd]
  rfl

/-- Behind a comma there is another key. -/
theorem readMembers_next (hKey : string s = .ok (key, afterKey))
    (hValue : readValue draft key afterKey = .ok (said, afterValue))
    (hComma : skipSpace afterValue = ',' :: more) (hQuote : skipSpace more = '"' :: rest) :
    readMembers (rounds + 1) draft s = readMembers rounds said rest := by
  simp only [readMembers, hKey, ok_bind, hValue, hComma, hQuote]

end

/-- The members are read from behind the first quote. The induction is on the members, for any draft
of what has been said in front of them. -/
theorem readMembers_of_members {entries : List Entry} {s : Text} (h : Members entries s) :
    ∃ inside, s = '"' :: inside ∧ ∀ {draft final : Draft} {rounds : Nat} (rest : Text),
      draft.Completes entries final → s.length ≤ rounds →
      readMembers rounds draft (inside ++ '\x7d' :: rest) = .ok (final, rest) := by
  induction h with
  | last hKey hBehindKey hFront hValue hBehind =>
      refine ⟨_, rfl, fun {draft final rounds} rest hCompletes hRounds => ?_⟩
      obtain ⟨hSizing, hWords, hCompletes⟩ := hCompletes.step
      cases rounds with
      | zero => cases hRounds
      | succ rounds =>
          rw [← hCompletes.eq_final]
          simp only [List.append_assoc, List.cons_append]
          exact readMembers_last (string_of_spells hKey _)
            (readValue_of_value hSizing hWords hBehindKey hFront hValue
              (endsNumber_append hBehind (by decide) rest))
            (skipSpace_token hBehind (by decide) rest)
  | next hKey hBehindKey hFront hValue hBehind hGap _ ih =>
      obtain ⟨more, rfl, ih⟩ := ih
      refine ⟨_, rfl, fun {draft final rounds} rest hCompletes hRounds => ?_⟩
      obtain ⟨hSizing, hWords, hCompletes⟩ := hCompletes.step
      cases rounds with
      | zero => cases hRounds
      | succ rounds =>
          simp only [List.append_assoc, List.cons_append]
          rw [readMembers_next (string_of_spells hKey _)
            (readValue_of_value hSizing hWords hBehindKey hFront hValue
              (endsNumber_append hBehind (by decide) _))
            (skipSpace_token hBehind (by decide) _) (skipSpace_token hGap (by decide) _)]
          refine ih rest hCompletes ?_
          simp only [List.length_cons, List.length_append] at hRounds ⊢
          omega

/-- An object that spells settings is read as them, wherever its members stand. -/
theorem parse_of_object {entries : List Entry} {source : Text} {final : Draft}
    (h : Object entries source) (hCompletes : Draft.Completes ⟨none, none⟩ entries final) :
    parse source = .ok final.settings := by
  cases h with
  | empty hFront hInner hBehind =>
      rw [← hCompletes.eq_final]
      simp only [parse, readDraft, skipSpace_token hFront (c := '\x7b') (by decide), readObject,
        skipSpace_token hInner (c := '\x7d') (by decide), ok_bind, skipSpace_blank hBehind]
      rfl
  | @members _ front inner s behind hFront hInner hMembers hBehind =>
      obtain ⟨inside, rfl, hRead⟩ := readMembers_of_members hMembers
      have hObject : readMembers ((inside ++ '\x7d' :: behind).length + 1) ⟨none, none⟩
          (inside ++ '\x7d' :: behind) = .ok (final, behind) := by
        refine hRead behind hCompletes ?_
        simp only [List.length_cons, List.length_append]
        omega
      simp only [List.cons_append, parse, readDraft,
        skipSpace_token hFront (c := '\x7b') (by decide), readObject,
        skipSpace_token hInner (c := '"') (by decide), hObject, ok_bind, skipSpace_blank hBehind]
      rfl

/-! Settings as they are written. -/

/-- What is written is such an object. -/
theorem object_json (settings : Settings) :
    Object [.sizing settings.sizing, .wordsPerLine settings.wordsPerLine] settings.json := by
  have hLabel : Spells settings.sizing.label settings.sizing.label := by
    cases settings.sizing <;> exact spells_plain (by decide)
  have hSizing : Spells "sizing".toList "sizing".toList := spells_plain (by decide)
  have hWords : Spells "words_per_line".toList "words_per_line".toList := spells_plain (by decide)
  have hMembers : Members [.sizing settings.sizing, .wordsPerLine settings.wordsPerLine] _ :=
    .next hSizing blank_nil blank_nil (.word hLabel) blank_nil blank_nil
      (.last hWords blank_nil blank_nil .count blank_nil)
  have hObject := Object.members blank_nil blank_nil hMembers blank_nil
  have hOpen : "\x7b\"sizing\":\"".toList =
      '\x7b' :: '"' :: ("sizing".toList ++ ['"', ':', '"']) := by decide
  have hNext : "\",\"words_per_line\":".toList =
      '"' :: ',' :: '"' :: ("words_per_line".toList ++ ['"', ':']) := by decide
  unfold Settings.json
  rw [hOpen, hNext]
  simp only [List.append_assoc, List.cons_append, List.nil_append, List.append_nil] at hObject ⊢
  exact hObject

/-- The written settings are read back. So is every object that gives each setting at most once,
in any order and spelling, with space between its tokens and with other members of any values. A
setting that is not given has its standard value. -/
theorem settings_read_back :
    (∀ settings : Settings, parse settings.json = .ok settings) ∧
      ∀ (entries : List Entry) (sizing? : Option Sizing) (wordsPerLine? : Option UInt64)
        (source : Text), Object entries source →
        entries.filterMap Entry.sizing? = sizing?.toList →
        entries.filterMap Entry.wordsPerLine? = wordsPerLine?.toList →
        parse source = .ok ⟨sizing?.getD .compatible, wordsPerLine?.getD 24⟩ := by
  constructor
  · intro settings
    have hCompletes : Draft.Completes ⟨none, none⟩
        [.sizing settings.sizing, .wordsPerLine settings.wordsPerLine]
        ⟨some settings.sizing, some settings.wordsPerLine⟩ := ⟨rfl, rfl⟩
    exact parse_of_object (object_json settings) hCompletes
  · intro entries sizing? wordsPerLine? source hObject hSizing hWords
    have hCompletes : Draft.Completes ⟨none, none⟩ entries ⟨sizing?, wordsPerLine?⟩ :=
      ⟨hSizing, hWords⟩
    exact parse_of_object hObject hCompletes

/-- The sizing is given in its long form under an escaped key, behind a nested value with half of a
surrogate pair in it. -/
theorem settings_read_back_scattered :
    ∃ entries source,
      source = ("\x7b\"x\" : [\x7b\"\":\"\\uD800\"\x7d, -0.5E+3\n] ,".toList ++
        "\"words_per_line\":\t18446744073709551615,\"\\u0073izing\":".toList ++
        "\x7b\"exact\" :null\x7d\x7d\r\n".toList) ∧
      Object entries source ∧ entries.filterMap Entry.sizing? = (some Sizing.exact).toList ∧
      entries.filterMap Entry.wordsPerLine? = (some 18446744073709551615).toList ∧
      parse source = .ok ⟨.exact, 18446744073709551615⟩ := by
  have hNumber : SpellsNumeral ⟨true, ['0'], some ['5'], some (false, ['3'])⟩ "-0.5E+3".toList :=
    .mk true ⟨by decide, by decide⟩ (by decide) (.point ⟨by decide, by decide⟩)
      (.plus (.inr rfl) ⟨by decide, by decide⟩)
  have hHalf : IsCodeUnit 0xd800 ['D', '8', '0', '0'] :=
    ⟨.inr rfl, .inl rfl, .inl rfl, .inl rfl⟩
  have hLetter : IsCodeUnit 's'.toNat ['0', '0', '7', '3'] :=
    ⟨.inl rfl, .inl rfl, .inl rfl, .inl rfl⟩
  have hNested : Grammar .value _ := .list blank_nil (.nextElement
    (.object blank_nil
      (.lastMember .nil blank_nil blank_nil (.string (.unit hHalf .nil)) blank_nil))
    blank_nil (by decide : Blank [' '])
    (.lastElement (.number hNumber) (by decide : Blank ['\n'])))
  have hKey : Spells "sizing".toList _ := .single hLetter (spells_plain (by decide))
  have hCount : Spells "words_per_line".toList "words_per_line".toList := spells_plain (by decide)
  have hExact : Spells Sizing.exact.label "exact".toList := spells_plain (by decide)
  have hOther : ['x'] ∉ ["sizing".toList, "words_per_line".toList] := by decide
  have hOtherKey : Spells ['x'] ['x'] := spells_plain (by decide)
  have hMembers :
      Members [.other ['x'] hOther, .wordsPerLine 18446744073709551615, .sizing .exact] _ :=
    .next hOtherKey (by decide : Blank [' ']) (by decide : Blank [' ']) (.any hNested)
      (by decide : Blank [' ']) blank_nil
      (.next hCount blank_nil (by decide : Blank ['\t']) .count blank_nil blank_nil
        (.last hKey blank_nil blank_nil
          (.variant blank_nil hExact (by decide : Blank [' ']) blank_nil blank_nil) blank_nil))
  have hObject := Object.members blank_nil blank_nil hMembers (by decide : Blank ['\r', '\n'])
  exact ⟨_, _, by decide +kernel, hObject, rfl, rfl,
    settings_read_back.2 _ (some .exact) (some 18446744073709551615) _ hObject rfl rfl⟩

end TwoPass.Settings
