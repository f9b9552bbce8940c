import TwoPass.Macro.Sweep
import TwoPass.Proofs.Macro.Reading

/-! What a comment at the end of a line can change. A line of a program is read without it, and so
is a call. A line that opens a definition is read with it, and a closing parenthesis in the comment
then ends the parameter list. -/
namespace TwoPass.Macro

section

variable {line other comment name inside : Text}

/-- Lines that differ in their comments only are expanded alike. All that differs is the line itself
or its echo, which comes out first. -/
theorem expandWithin_of_stripComment (h : stripComment other = stripComment line)
    (macros : MacroTable) (budget : Nat) :
    (expandWithin macros budget other).events = (expandWithin macros budget line).events ∧
    ((∃ error, (expandWithin macros budget line).result = .error error ∧
        (expandWithin macros budget other).result = .error error) ∨
      ∃ mark rest, (mark = [] ∨ mark = ['#']) ∧
        (expandWithin macros budget line).result = .ok ((mark ++ line) :: rest) ∧
        (expandWithin macros budget other).result = .ok ((mark ++ other) :: rest)) := by
  have hCall : callOf? macros other = callOf? macros line := by
    simp only [callOf?, call?, h]
  rw [expandWithin, expandWithin, hCall]
  cases callOf? macros line with
  | none => exact ⟨rfl, .inr ⟨[], [], .inl rfl, rfl, rfl⟩⟩
  | some called =>
      obtain ⟨call, m⟩ := called
      cases budget with
      | zero => exact ⟨rfl, .inl ⟨_, rfl, rfl⟩⟩
      | succ budget =>
          dsimp only
          generalize Logged.flatMap (expandWithin macros budget) (m.bodyFor call.arguments) = body
          obtain ⟨events, error | lines⟩ := body
          · exact ⟨rfl, .inl ⟨error, rfl, rfl⟩⟩
          · refine ⟨rfl, .inr ⟨['#'], ?_⟩⟩
            exact ⟨(call.label.map (· ++ [':'])).toList ++ lines, .inr rfl, rfl, rfl⟩

/-- A comment at the end of a line whose quotes are all closed changes nothing but the line itself:
the line has the same parts, and its expansion tells the same and fails alike, or gives the same
lines behind the first one. That first line is the line itself or its echo, and it carries the
comment. -/
theorem trailing_comments_are_neutral (hEven : Even ((stripComment line).count '"'))
    (comment : Text) (macros : MacroTable) :
    Line.parse (line ++ '#' :: comment) = Line.parse line ∧
    (expand macros (line ++ '#' :: comment)).events = (expand macros line).events ∧
    ((∃ error, (expand macros line).result = .error error ∧
        (expand macros (line ++ '#' :: comment)).result = .error error) ∨
      ∃ first rest, (first = line ∨ first = '#' :: line) ∧
        (expand macros line).result = .ok (first :: rest) ∧
        (expand macros (line ++ '#' :: comment)).result =
          .ok ((first ++ '#' :: comment) :: rest)) := by
  have hStrip := stripComment_append_hash hEven comment
  obtain ⟨hEvents, hResult⟩ := expandWithin_of_stripComment hStrip macros depthLimit
  refine ⟨by rw [Line.parse, hStrip, Line.parse], hEvents, ?_⟩
  rcases hResult with hError | ⟨mark, rest, hMark, hLine, hOther⟩
  · exact .inl hError
  · rw [← List.append_assoc] at hOther
    refine .inr ⟨mark ++ line, rest, ?_, hLine, hOther⟩
    rcases hMark with rfl | rfl
    · exact .inl rfl
    · exact .inr rfl

def quoting : MacroTable :=
  ⟨[("two".toList,
    ⟨"two".toList, [['x'], ['y']], ["STRING x".toList, "WORD y".toList]⟩)]⟩

/-- The call has a hash sign between quotes, and the comment has a parenthesis, a comma and a quote
that is never closed. -/
theorem trailing_comments_are_neutral_quoted :
    Even ((stripComment "go: two(\"#\", 7)".toList).count '"') ∧
      Line.parse ("go: two(\"#\", 7)".toList ++ '#' :: " (a), \"b".toList) =
        Line.parse "go: two(\"#\", 7)".toList ∧
      (expand quoting "go: two(\"#\", 7)".toList).result =
        .ok ("#go: two(\"#\", 7)".toList ::
          ["go:".toList, "STRING \"#\"".toList, "WORD 7".toList]) ∧
      (expand quoting ("go: two(\"#\", 7)".toList ++ '#' :: " (a), \"b".toList)).result =
        .ok ("#go: two(\"#\", 7)# (a), \"b".toList ::
          ["go:".toList, "STRING \"#\"".toList, "WORD 7".toList]) := by
  have hEven : Even ((stripComment "go: two(\"#\", 7)".toList).count '"') := by decide
  have hExpand : (expand quoting "go: two(\"#\", 7)".toList).result =
      .ok ("#go: two(\"#\", 7)".toList ::
        ["go:".toList, "STRING \"#\"".toList, "WORD 7".toList]) := by rfl
  obtain ⟨hParse, -, hResult⟩ := trailing_comments_are_neutral hEven " (a), \"b".toList quoting
  refine ⟨hEven, hParse, hExpand, ?_⟩
  rcases hResult with ⟨error, hError, -⟩ | ⟨first, rest, -, hFirst, hCommented⟩
  · rw [hExpand] at hError
    cases hError
  · rw [hExpand] at hFirst
    injection hFirst with hFirst
    injection hFirst with hFirst hRest
    rw [hCommented, ← hFirst, ← hRest]
    rfl

/-- A comment opens no parameter list. -/
theorem exists_opensDefinition_of_append
    (h : OpensDefinition (line ++ '#' :: comment) name inside) :
    ∃ inside, OpensDefinition line name inside := by
  obtain ⟨lead, keyword, _, hLine, hLead, hKeyword, hBlank, gap, between, rfl, hGap, hName,
    hBetween⟩ := h
  have hBlanks : ∀ {blanks : Text}, blanks.all Text.isBlank = true → '#' ∉ blanks :=
    fun hAll => Text.not_mem_of_all hAll (by decide)
  have hUpper : '#' ∉ keyword := by
    intro hMem
    have hMapped : Char.toUpper '#' ∈ keyword.map Char.toUpper := List.mem_map_of_mem hMem
    rw [hKeyword] at hMapped
    exact absurd hMapped (by decide)
  have hFront : '#' ∉ lead ++ (keyword ++ (gap ++ (name ++ (between ++ ['('])))) := by
    simp [hBlanks hLead, hUpper, hBlanks hGap, hBlanks hBetween,
      Text.not_mem_of_all hName (show Text.isWordChar '#' = false by decide)]
  have hSplit : (lead ++ (keyword ++ (gap ++ (name ++ (between ++ ['(']))))) ++ inside =
      line ++ '#' :: comment := by simpa using hLine.symm
  obtain ⟨rest, rfl, rfl⟩ := Text.exists_of_append_eq hSplit hFront
  have hOpens : OpensList (gap ++ (name ++ (between ++ '(' :: rest))) name rest :=
    ⟨gap, between, rfl, hGap, hName, hBetween⟩
  refine ⟨rest, lead, keyword, _, by simp, hLead, hKeyword, ?_, hOpens⟩
  rw [← Text.startsBlank_append hOpens.ne_nil ('#' :: comment)]
  simpa using hBlank

/-- A comment does not make a line a definition. -/
theorem definition?_append_of_not_opens (h : ¬∃ name inside, OpensDefinition line name inside)
    (comment : Text) : definition? (line ++ '#' :: comment) = none := by
  apply definition?_of_not_opens
  rintro ⟨name, inside, hOpens⟩
  exact h ⟨name, exists_opensDefinition_of_append hOpens⟩

/-- A comment without a closing parenthesis is no part of a list, because lists end at one. -/
theorem definition?_append_of_not_mem (h : ')' ∉ comment) :
    definition? (line ++ '#' :: comment) = definition? line := by
  by_cases hOpens : ∃ name inside, OpensDefinition line name inside
  · obtain ⟨name, inside, hOpens⟩ := hOpens
    rw [definition?_of_opens (hOpens.append _), definition?_of_opens hOpens,
      Text.beforeLast_append_of_not_mem (by simp [h])]
  · rw [definition?_append_of_not_opens hOpens, definition?_of_not_opens hOpens]

/-- A parenthesis in a comment closes the parameters of a definition, because the last one in the
line counts. -/
theorem definition?_append_of_opens {early late : Text} (hOpens : OpensDefinition line name inside)
    (hLate : ')' ∉ late) :
    definition? (line ++ '#' :: (early ++ ')' :: late)) =
      some (name, Text.splitList (inside ++ '#' :: early)) := by
  have hInside : inside ++ '#' :: (early ++ ')' :: late) =
      (inside ++ '#' :: early) ++ ')' :: late := by simp
  rw [definition?_of_opens (hOpens.append _), hInside, Text.beforeLast_append hLate]
  rfl

/-- A definition is read with the comment on its line. So the comment changes what is defined
exactly if it has a closing parenthesis and the line opens a parameter list. The list then goes on
through the comment up to the last closing parenthesis there, also if it was closed before. -/
theorem definitions_take_in_comments (hHash : '#' ∉ line) (comment : Text) :
    (definition? (line ++ '#' :: comment) = definition? line ↔
      ')' ∉ comment ∨ ¬∃ name inside, OpensDefinition line name inside) ∧
    ∀ name inside early late, OpensDefinition line name inside → comment = early ++ ')' :: late →
      ')' ∉ late →
      definition? (line ++ '#' :: comment) =
        some (name, Text.splitList (inside ++ '#' :: early)) := by
  constructor
  · constructor
    · intro hSame
      by_contra hNot
      rw [not_or, not_not, not_not] at hNot
      obtain ⟨hMem, name, inside, hOpens⟩ := hNot
      obtain ⟨early, late, rfl, hLate⟩ := Text.exists_last_of_mem hMem
      rw [definition?_append_of_opens hOpens hLate] at hSame
      -- One of the parameters has the hash sign, which the line without its comment does not have.
      obtain ⟨parameter, hParameter, hInside⟩ := Text.exists_mem_splitList
        (show '#' ∈ inside ++ '#' :: early by simp) (by decide) (by decide)
      exact hHash (parameters_subset hSame.symm parameter hParameter hInside)
    · rintro (hNone | hCloses)
      · exact definition?_append_of_not_mem hNone
      · rw [definition?_append_of_not_opens hCloses, definition?_of_not_opens hCloses]
  · rintro name inside early late hOpens rfl hLate
    exact definition?_append_of_opens hOpens hLate

theorem definitions_take_in_comments_parenthesised :
    '#' ∉ "MACRO m(a)".toList ∧
      definition? "MACRO m(a)".toList = some (['m'], [['a']]) ∧
      definition? ("MACRO m(a)".toList ++ '#' :: " (x)".toList) =
        some (['m'], ["a)# (x".toList]) ∧
      definition? ("MACRO m(a)".toList ++ '#' :: " (x)".toList) ≠
        definition? "MACRO m(a)".toList ∧
      ((sweep "MACRO m(a)# (x)\nWORD a\nENDMACRO\nm(7)".toList).result.toOption.map fun swept =>
        swept.1.map StreamLine.text) =
        some (["# MACRO m(a)# (x)", "# WORD a", "# ENDMACRO", "#m(7)", "WORD a"].map
          String.toList) := by
  have hHash : '#' ∉ "MACRO m(a)".toList := by decide
  have hOpens : OpensDefinition "MACRO m(a)".toList ['m'] "a)".toList :=
    ⟨[], "MACRO".toList, " m(a)".toList, by decide, by decide, by decide, by decide, [' '], [],
      by decide, by decide, by decide, by decide⟩
  obtain ⟨hSame, hTaken⟩ := definitions_take_in_comments hHash " (x)".toList
  refine ⟨hHash, by decide, ?_, ?_, by decide +kernel⟩
  · exact hTaken ['m'] "a)".toList " (x".toList [] hOpens (by decide) (by decide)
  · rw [Ne, hSame]
    rintro (hNone | hCloses)
    · exact absurd hNone (by decide)
    · exact hCloses ⟨_, _, hOpens⟩

end

end TwoPass.Macro
