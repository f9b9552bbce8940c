import TwoPass.Macro.Basic
import TwoPass.Proofs.Line.Parts

/-! The lines that call or define a macro, told by their form. Both have a word with a list in
parentheses, and the list goes on up to the last closing parenthesis of what is read. For a call
that is the line without its comment, for a definition the whole line. -/
namespace TwoPass.Macro

/-- A text that opens a list: a word, which may be empty, and a parenthesis, with blanks in front of
either. All that follows the parenthesis is inside so far. -/
def OpensList (s name inside : Text) : Prop :=
  ∃ lead between, s = lead ++ (name ++ (between ++ '(' :: inside)) ∧
    lead.all Text.isBlank = true ∧ name.all Text.isWordChar = true ∧
    between.all Text.isBlank = true

/-- A call as it is written without a comment. -/
inductive Call.Written : Call → Text → Prop where
  | plain {s name list after : Text} {arguments : List Text}
      (hList : OpensList s name (list ++ ')' :: after)) (hLast : ')' ∉ after) (hName : name ≠ [])
      (hArguments : Text.Listed list arguments) : Written ⟨none, name, arguments⟩ s
  | labelled {lead label s name list after : Text} {arguments : List Text}
      (hLead : lead.all Text.isBlank = true) (hWord : label.all Text.isWordChar = true)
      (hLabel : label ≠ []) (hList : OpensList s name (list ++ ')' :: after)) (hLast : ')' ∉ after)
      (hName : name ≠ []) (hArguments : Text.Listed list arguments) :
      Written ⟨some label, name, arguments⟩ (lead ++ (label ++ ':' :: s))

/-- Whether a line is written as a call of a macro in a table. -/
def Invokes (macros : MacroTable) (line : Text) : Prop :=
  ∃ call m, Call.Written call (stripComment line) ∧ macros.get? call.name = some m

/-- A line that opens the parameter list of a definition: the keyword in either case, at least one
blank, and then a name and a parenthesis. -/
def OpensDefinition (line name inside : Text) : Prop :=
  ∃ lead keyword s, line = lead ++ (keyword ++ s) ∧ lead.all Text.isBlank = true ∧
    keyword.map Char.toUpper = "MACRO".toList ∧ Text.startsBlank s = true ∧ OpensList s name inside

section

variable {s name inside list line : Text}

/-- What follows a line that opens a list is inside the list. -/
theorem OpensList.append (h : OpensList s name inside) (t : Text) :
    OpensList (s ++ t) name (inside ++ t) := by
  obtain ⟨lead, between, rfl, hLead, hName, hBetween⟩ := h
  exact ⟨lead, between, by simp, hLead, hName, hBetween⟩

/-- The list is part of the line. -/
theorem OpensList.subset (h : OpensList s name inside) : '(' :: inside ⊆ s := by
  obtain ⟨lead, between, rfl, -⟩ := h
  intro c hMem
  simp only [List.mem_append]
  exact .inr (.inr (.inr hMem))

theorem OpensList.ne_nil (h : OpensList s name inside) : s ≠ [] :=
  List.ne_nil_of_mem (h.subset (List.mem_cons_self ..))

/-- The name ends at a blank or at the parenthesis. -/
theorem stops_at_parenthesis {between : Text} (h : between.all Text.isBlank = true) (c : Char)
    (hHead : (between ++ '(' :: inside).head? = some c) : Text.isWordChar c = false ∧ c ≠ ':' := by
  cases between with
  | nil =>
      cases hHead
      decide
  | cons blank rest =>
      cases hHead
      have hBlank : Text.isBlank c = true := List.all_eq_true.mp h c (by simp)
      exact ⟨Text.isWordChar_of_isBlank hBlank, Text.ne_of_isBlank hBlank (by decide)⟩

/-- The list goes to the last parenthesis. -/
theorem nameAndList?_of_opensList (h : OpensList s name inside) :
    nameAndList? s = (Text.beforeLast ')' inside).map fun list => (name, list) := by
  have hParts : ∃ rest, Text.splitWord (Text.trimStart s) = (name, rest) ∧
      Text.trimStart rest = '(' :: inside := by
    obtain ⟨lead, between, rfl, hLead, hName, hBetween⟩ := h
    have hOpen : Text.trimStart (between ++ '(' :: inside) = '(' :: inside := by
      rw [Text.trimStart_blanks_append hBetween, Text.trimStart_cons (by decide)]
    rw [Text.trimStart_blanks_append hLead]
    by_cases hNil : name = []
    · -- Without a name the blanks on both sides of it are dropped together.
      subst hNil
      refine ⟨'(' :: inside, ?_, Text.trimStart_cons (by decide) inside⟩
      rw [List.nil_append, hOpen]
      rfl
    · refine ⟨between ++ '(' :: inside, ?_, hOpen⟩
      rw [Text.trimStart_word_append hName (fun h => absurd h hNil)]
      exact Text.splitWord_append_of_stop hName fun c hHead =>
        (stops_at_parenthesis hBetween c hHead).1
  obtain ⟨rest, hSplit, hRest⟩ := hParts
  rw [nameAndList?, hSplit]
  dsimp only
  rw [hRest]
  rfl

theorem exists_opensList (h : nameAndList? s = some (name, list)) :
    ∃ inside, OpensList s name inside := by
  obtain ⟨lead, hLead, hTrim⟩ := Text.exists_trimStart s
  have hAppend := Text.splitWord_append (Text.trimStart s)
  have hWord : (Text.splitWord (Text.trimStart s)).1.all Text.isWordChar = true :=
    List.all_takeWhile
  unfold nameAndList? at h
  generalize Text.splitWord (Text.trimStart s) = parts at h hAppend hWord
  obtain ⟨word, rest⟩ := parts
  dsimp only at h hAppend hWord
  obtain ⟨between, hBetween, hRest⟩ := Text.exists_trimStart rest
  split at h
  · next inside hInside =>
      obtain ⟨before, -, hPair⟩ := Option.map_eq_some_iff.mp h
      cases hPair
      rw [hInside] at hRest
      rw [← hAppend, hRest] at hTrim
      exact ⟨inside, lead, between, hTrim, hLead, hWord, hBetween⟩
  · cases h

/-- The list goes up to the last closing parenthesis. -/
theorem nameAndList?_eq_some_iff :
    nameAndList? s = some (name, list) ↔
      ∃ after, OpensList s name (list ++ ')' :: after) ∧ ')' ∉ after := by
  constructor
  · intro h
    obtain ⟨inside, hOpens⟩ := exists_opensList h
    rw [nameAndList?_of_opensList hOpens] at h
    obtain ⟨before, hBefore, hPair⟩ := Option.map_eq_some_iff.mp h
    cases hPair
    obtain ⟨after, rfl, hLast⟩ := Text.beforeLast_eq_some_iff.mp hBefore
    exact ⟨after, hOpens, hLast⟩
  · rintro ⟨after, hOpens, hLast⟩
    rw [nameAndList?_of_opensList hOpens, Text.beforeLast_append hLast]
    rfl

/-- A call is found exactly on the lines that are written as one. -/
theorem call?_eq_some_iff {call : Call} :
    call? line = some call ↔ call.Written (stripComment line) := by
  constructor
  · intro h
    unfold call? at h
    dsimp only at h
    split at h
    · cases h
    · next name list hList =>
        split at h
        · cases h
        · next hEmpty =>
            cases h
            have hName : name ≠ [] := by simpa using hEmpty
            obtain ⟨after, hOpens, hLast⟩ := nameAndList?_eq_some_iff.mp hList
            rcases splitLabel_cases (stripComment line) with
              hNone | ⟨lead, label, rest, hEq, hLead, hWord, hLabel, hSome⟩
            · rw [hNone] at hOpens ⊢
              exact .plain hOpens hLast hName (Text.listed_splitList list)
            · rw [hSome] at hOpens ⊢
              rw [hEq]
              exact .labelled hLead hWord hLabel hOpens hLast hName (Text.listed_splitList list)
  · intro h
    generalize hCode : stripComment line = code at h
    unfold call?
    rw [hCode]
    cases h with
    | plain hList hLast hName hArguments =>
        have hNone : splitLabel code = (none, code) := by
          obtain ⟨lead, between, rfl, hLead, hWord, hBetween⟩ := hList
          exact splitLabel_of_stop hLead hWord (fun h => absurd h hName)
            (stops_at_parenthesis hBetween)
        rw [hNone]
        dsimp only
        rw [nameAndList?_eq_some_iff.mpr ⟨_, hList, hLast⟩]
        simp [hName, Text.listed_iff.mp hArguments]
    | labelled hLead hWord hLabel hList hLast hName hArguments =>
        rw [splitLabel_of_colon hLead hWord hLabel]
        dsimp only
        rw [nameAndList?_eq_some_iff.mpr ⟨_, hList, hLast⟩]
        simp [hName, Text.listed_iff.mp hArguments]

/-- A call of a macro is a call, and the macro is in the table. -/
theorem callOf?_eq_some_iff {macros : MacroTable} {call : Call} {m : Macro} :
    callOf? macros line = some (call, m) ↔
      call? line = some call ∧ macros.get? call.name = some m := by
  simp only [callOf?, Option.bind_eq_some_iff, Option.map_eq_some_iff, Prod.mk.injEq]
  constructor
  · rintro ⟨_, hCall, _, hFound, rfl, rfl⟩
    exact ⟨hCall, hFound⟩
  · rintro ⟨hCall, hFound⟩
    exact ⟨call, hCall, m, hFound, rfl, rfl⟩

/-- Where nothing is invoked, nothing is called. -/
theorem callOf?_eq_none_iff {macros : MacroTable} :
    callOf? macros line = none ↔ ¬Invokes macros line := by
  rw [Option.eq_none_iff_forall_ne_some]
  constructor
  · rintro h ⟨call, m, hWritten, hFound⟩
    exact h (call, m) (callOf?_eq_some_iff.mpr ⟨call?_eq_some_iff.mpr hWritten, hFound⟩)
  · rintro h ⟨call, m⟩ hCall
    obtain ⟨hCall, hFound⟩ := callOf?_eq_some_iff.mp hCall
    exact h ⟨call, m, call?_eq_some_iff.mp hCall, hFound⟩

/-- Keywords are read in either case. -/
theorem dropKeyword?_eq_some_iff {keyword rest : Text} :
    dropKeyword? keyword s = some rest ↔
      ∃ word, s = word ++ rest ∧ word.map Char.toUpper = keyword := by
  induction keyword generalizing s with
  | nil => simp [dropKeyword?, eq_comm]
  | cons k keyword ih =>
      cases s with
      | nil => simp [dropKeyword?]
      | cons c s =>
          rw [dropKeyword?]
          constructor
          · intro h
            split at h
            · next hUpper =>
                obtain ⟨word, rfl, hWord⟩ := ih.mp h
                exact ⟨c :: word, rfl, by rw [List.map_cons, hUpper, hWord]⟩
            · cases h
          · rintro ⟨word, hEq, hWord⟩
            cases word with
            | nil => cases hWord
            | cons first word =>
                cases hEq
                cases hWord
                rw [if_pos rfl]
                exact ih.mpr ⟨word, rfl, rfl⟩

/-- What follows a line that opens a definition is inside its parameters. -/
theorem OpensDefinition.append (h : OpensDefinition line name inside) (t : Text) :
    OpensDefinition (line ++ t) name (inside ++ t) := by
  obtain ⟨lead, keyword, s, rfl, hLead, hKeyword, hBlank, hOpens⟩ := h
  refine ⟨lead, keyword, s ++ t, by simp, hLead, hKeyword, ?_, hOpens.append t⟩
  rwa [Text.startsBlank_append hOpens.ne_nil]

/-- The parameters go to the last parenthesis. -/
theorem definition?_of_opens (h : OpensDefinition line name inside) :
    definition? line =
      (Text.beforeLast ')' inside).map fun list => (name, Text.splitList list) := by
  obtain ⟨lead, keyword, s, rfl, hLead, hKeyword, hBlank, hOpens⟩ := h
  have hTrim : Text.trimStart (keyword ++ s) = keyword ++ s := by
    cases keyword with
    | nil => cases hKeyword
    | cons first others =>
        apply Text.trimStart_cons
        by_contra hBlank
        rw [Bool.not_eq_false] at hBlank
        have hFirst : first = 'M' := by
          rw [List.map_cons, Text.toUpper_of_isBlank hBlank] at hKeyword
          exact List.head_eq_of_cons_eq hKeyword
        rw [hFirst] at hBlank
        exact absurd hBlank (by decide)
  rw [definition?, Text.trimStart_blanks_append hLead, hTrim,
    dropKeyword?_eq_some_iff.mpr ⟨keyword, rfl, hKeyword⟩]
  dsimp only
  rw [if_pos hBlank, nameAndList?_of_opensList hOpens, Option.map_map]
  rfl

theorem exists_opensDefinition {parameters : List Text}
    (h : definition? line = some (name, parameters)) :
    ∃ inside, OpensDefinition line name inside := by
  unfold definition? at h
  split at h
  · cases h
  · next rest hKeyword =>
      split at h
      · next hBlank =>
          obtain ⟨⟨word, list⟩, hList, hPair⟩ := Option.map_eq_some_iff.mp h
          cases hPair
          obtain ⟨inside, hOpens⟩ := exists_opensList hList
          obtain ⟨lead, hLead, hTrim⟩ := Text.exists_trimStart line
          obtain ⟨keyword, hEq, hKeyword⟩ := dropKeyword?_eq_some_iff.mp hKeyword
          rw [hEq] at hTrim
          exact ⟨inside, lead, keyword, rest, hTrim, hLead, hKeyword, hBlank, hOpens⟩
      · cases h

/-- Only a line that opens a definition is one. -/
theorem definition?_of_not_opens (h : ¬∃ name inside, OpensDefinition line name inside) :
    definition? line = none := by
  rw [Option.eq_none_iff_forall_ne_some]
  rintro ⟨name, parameters⟩ hDefinition
  exact h ⟨name, exists_opensDefinition hDefinition⟩

/-- The parameters stand on the line that opens the definition. -/
theorem parameters_subset {parameters : List Text}
    (h : definition? line = some (name, parameters)) :
    ∀ parameter ∈ parameters, parameter ⊆ line := by
  obtain ⟨inside, hOpens⟩ := exists_opensDefinition h
  rw [definition?_of_opens hOpens] at h
  obtain ⟨list, hList, hPair⟩ := Option.map_eq_some_iff.mp h
  cases hPair
  obtain ⟨after, rfl, -⟩ := Text.beforeLast_eq_some_iff.mp hList
  obtain ⟨lead, keyword, s, rfl, -, -, -, hOpens⟩ := hOpens
  intro parameter hMem c hc
  have hInside : c ∈ s := hOpens.subset (by simp [Text.subset_of_mem_splitList hMem hc])
  simp [hInside]

end

end TwoPass.Macro
