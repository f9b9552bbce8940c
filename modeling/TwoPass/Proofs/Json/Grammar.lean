import TwoPass.Proofs.Json.Token

namespace TwoPass.Json

/-- The texts of values, of the elements between the brackets of a list, and of the members between
the braces of an object. No text has space in front; elements and members may have space behind. -/
inductive Grammar : Part → Text → Prop where
  | keyword {s : Text} (hKeyword : s ∈ ["null".toList, "true".toList, "false".toList]) :
      Grammar .value s
  | number {n : Numeral} {s : Text} (hNumber : SpellsNumeral n s) : Grammar .value s
  | string {s : Text} (hInside : Inside s) : Grammar .value ('"' :: (s ++ ['"']))
  | emptyList {gap : Text} (hGap : Blank gap) : Grammar .value ('[' :: (gap ++ [']']))
  | list {gap s : Text} (hGap : Blank gap) (hElements : Grammar .elements s) :
      Grammar .value ('[' :: (gap ++ (s ++ [']'])))
  | emptyObject {gap : Text} (hGap : Blank gap) : Grammar .value ('\x7b' :: (gap ++ ['\x7d']))
  | object {gap s : Text} (hGap : Blank gap) (hMembers : Grammar .members s) :
      Grammar .value ('\x7b' :: (gap ++ (s ++ ['\x7d'])))
  | lastElement {value behind : Text} (hValue : Grammar .value value) (hBehind : Blank behind) :
      Grammar .elements (value ++ behind)
  | nextElement {value behind gap others : Text} (hValue : Grammar .value value)
      (hBehind : Blank behind) (hGap : Blank gap) (hOthers : Grammar .elements others) :
      Grammar .elements (value ++ (behind ++ ',' :: (gap ++ others)))
  | lastMember {key behindKey front value behind : Text} (hKey : Inside key)
      (hBehindKey : Blank behindKey) (hFront : Blank front) (hValue : Grammar .value value)
      (hBehind : Blank behind) :
      Grammar .members ('"' :: (key ++ '"' :: (behindKey ++ ':' :: (front ++ (value ++ behind)))))
  | nextMember {key behindKey front value behind gap others : Text} (hKey : Inside key)
      (hBehindKey : Blank behindKey) (hFront : Blank front) (hValue : Grammar .value value)
      (hBehind : Blank behind) (hGap : Blank gap) (hOthers : Grammar .members others) :
      Grammar .members ('"' :: (key ++ '"' :: (behindKey ++ ':' :: (front ++ (value ++
        (behind ++ ',' :: (gap ++ others)))))))

/-- What ends a part. -/
def Part.close : Part → Text
  | .value => []
  | .elements => [']']
  | .members => ['\x7d']

/-- Parts start with a token that cannot be mistaken for the end of a list. -/
theorem Grammar.exists_cons {part : Part} {s : Text} (h : Grammar part s) :
    ∃ c more, s = c :: more ∧ isSpace c = false ∧ c ≠ ']' ∧ (part = .members → c = '"') := by
  induction h with
  | keyword hKeyword =>
      simp only [List.mem_cons, List.not_mem_nil, or_false] at hKeyword
      rcases hKeyword with rfl | rfl | rfl
      · exact ⟨'n', _, rfl, by decide, by decide, nofun⟩
      · exact ⟨'t', _, rfl, by decide, by decide, nofun⟩
      · exact ⟨'f', _, rfl, by decide, by decide, nofun⟩
  | number hNumber =>
      obtain ⟨c, more, rfl, hStart⟩ := hNumber.exists_cons
      refine ⟨c, more, rfl, isSpace_of_isDigit hStart, ?_, nofun⟩
      rintro rfl
      exact absurd hStart (by decide)
  | string => exact ⟨'"', _, rfl, by decide, by decide, nofun⟩
  | emptyList | list => exact ⟨'[', _, rfl, by decide, by decide, nofun⟩
  | emptyObject | object => exact ⟨'\x7b', _, rfl, by decide, by decide, nofun⟩
  | lastElement _ _ ih | nextElement _ _ _ _ ih =>
      obtain ⟨c, more, rfl, hSpace, hClosed, -⟩ := ih
      exact ⟨c, _, rfl, hSpace, hClosed, nofun⟩
  | lastMember | nextMember => exact ⟨'"', _, rfl, by decide, by decide, fun _ => rfl⟩

/-- No part is empty, so each needs a round of its own. -/
theorem Grammar.ne_nil {part : Part} {s : Text} (h : Grammar part s) : s ≠ [] := by
  obtain ⟨c, more, rfl, -⟩ := h.exists_cons
  exact List.cons_ne_nil c more

/-- A keyword is passed letter by letter. -/
theorem keyword_append (word rest : Text) : keyword word (word ++ rest) = .ok rest := by
  induction word with
  | nil => rw [List.nil_append, keyword]
  | cons c word ih => rw [List.cons_append, keyword, if_pos rfl, ih]

/-- Behind space, a comma or the end of a list or an object ends a number. -/
theorem endsNumber_append {gap : Text} {c : Char} (hGap : Blank gap)
    (hMark : c ∈ [',', ']', '\x7d']) (rest : Text) : EndsNumber (gap ++ c :: rest) := by
  intro d hHead
  cases gap with
  | nil =>
      cases hHead
      simp only [List.mem_cons, List.not_mem_nil, or_false] at hMark
      rcases hMark with rfl | rfl | rfl <;> decide
  | cons =>
      cases hHead
      have hSpace := List.all_eq_true.mp hGap d (by simp)
      simp only [isSpace, Bool.or_eq_true, beq_iff_eq] at hSpace
      rcases hSpace with ((rfl | rfl) | rfl) | rfl <;> decide

section

variable {rounds : Nat} {s inside afterKey valueText afterValue rest more : Text} {c : Char}

/-- A list that is not closed at once has elements. -/
theorem skipPart_list (hOpen : skipSpace s = '[' :: inside) (hFirst : skipSpace inside = c :: more)
    (hClosed : c ≠ ']') :
    skipPart (rounds + 1) .value s = skipPart rounds .elements (c :: more) := by
  simp only [skipPart, hOpen, hFirst]
  split
  · next hNil => cases hNil
  · next hCons => exact absurd (List.head_eq_of_cons_eq hCons) hClosed
  · rfl

/-- Behind the last element the list is closed. -/
theorem skipPart_elements_last (hValue : skipPart rounds .value s = .ok afterValue)
    (hEnd : skipSpace afterValue = ']' :: rest) :
    skipPart (rounds + 1) .elements s = .ok rest := by
  simp only [skipPart, hValue, ok_bind, hEnd]

/-- Behind a comma the elements go on. -/
theorem skipPart_elements_next (hValue : skipPart rounds .value s = .ok afterValue)
    (hComma : skipSpace afterValue = ',' :: rest) :
    skipPart (rounds + 1) .elements s = skipPart rounds .elements rest := by
  simp only [skipPart, hValue, ok_bind, hComma]

/-- A member is a key, a colon and a value; behind the last one the object is closed. -/
theorem skipPart_members_last (hQuote : skipSpace s = '"' :: inside)
    (hKey : skipString inside = .ok afterKey) (hColon : skipSpace afterKey = ':' :: valueText)
    (hValue : skipPart rounds .value valueText = .ok afterValue)
    (hEnd : skipSpace afterValue = '\x7d' :: rest) :
    skipPart (rounds + 1) .members s = .ok rest := by
  simp only [skipPart, hQuote, hKey, ok_bind, hColon, hValue, hEnd]

/-- Behind a comma the members go on. -/
theorem skipPart_members_next (hQuote : skipSpace s = '"' :: inside)
    (hKey : skipString inside = .ok afterKey) (hColon : skipSpace afterKey = ':' :: valueText)
    (hValue : skipPart rounds .value valueText = .ok afterValue)
    (hComma : skipSpace afterValue = ',' :: rest) :
    skipPart (rounds + 1) .members s = skipPart rounds .members rest := by
  simp only [skipPart, hQuote, hKey, ok_bind, hColon, hValue, hComma]

end

/-- As many rounds as are allowed for the text get past it, whatever space is in front, if a value
is not followed by what could go on as a number. -/
def Passes (part : Part) (s : Text) : Prop :=
  ∀ rounds gap rest, Blank gap → 2 * (s ++ part.close).length ≤ rounds →
    (part = .value → EndsNumber rest) →
    skipPart rounds part (gap ++ (s ++ (part.close ++ rest))) = .ok rest

namespace Passes

variable {part : Part} {s : Text}

/-- A part is passed if the reader gets over it from any gap in front, with rounds for twice its
length. -/
theorem intro (hNonempty : s ≠ []) (h : ∀ rounds gap rest, Blank gap →
      2 * (s ++ part.close).length ≤ rounds + 1 → (part = .value → EndsNumber rest) →
      skipPart (rounds + 1) part (gap ++ (s ++ (part.close ++ rest))) = .ok rest) :
    Passes part s := by
  intro rounds gap rest hGap hRounds hRest
  have hLength := List.length_pos_of_ne_nil hNonempty
  rw [List.length_append] at hRounds
  cases rounds with
  | zero => omega
  | succ rounds => exact h rounds gap rest hGap (by rwa [List.length_append]) hRest

/-- The three keywords are values. -/
theorem keyword (hKeyword : s ∈ ["null".toList, "true".toList, "false".toList]) :
    Passes .value s := by
  simp only [List.mem_cons, List.not_mem_nil, or_false] at hKeyword
  rcases hKeyword with rfl | rfl | rfl
  all_goals refine intro (by decide) fun rounds gap rest hGap _ _ => ?_
  · change skipPart (rounds + 1) .value (gap ++ 'n' :: ("ull".toList ++ rest)) = .ok rest
    rw [skipPart, skipSpace_token hGap (by decide)]
    exact keyword_append "ull".toList rest
  · change skipPart (rounds + 1) .value (gap ++ 't' :: ("rue".toList ++ rest)) = .ok rest
    rw [skipPart, skipSpace_token hGap (by decide)]
    exact keyword_append "rue".toList rest
  · change skipPart (rounds + 1) .value (gap ++ 'f' :: ("alse".toList ++ rest)) = .ok rest
    rw [skipPart, skipSpace_token hGap (by decide)]
    exact keyword_append "alse".toList rest

theorem number {n : Numeral} (hNumber : SpellsNumeral n s) : Passes .value s := by
  obtain ⟨c, more, rfl, hStart⟩ := hNumber.exists_cons
  refine intro (List.cons_ne_nil c more) fun rounds gap rest hGap _ hRest => ?_
  rw [List.cons_append,
    skipPart_number (skipSpace_token hGap (isSpace_of_isDigit hStart) _) hStart]
  exact skipNumber_of_spells hNumber (hRest rfl)

/-- A string ends at the first quote outside an escape. -/
theorem string (hInside : Inside s) : Passes .value ('"' :: (s ++ ['"'])) := by
  refine intro (List.cons_ne_nil _ _) fun rounds gap rest hGap _ _ => ?_
  simp only [List.cons_append, List.append_assoc, List.nil_append, Part.close]
  rw [skipPart, skipSpace_token hGap (by decide)]
  exact skipString_of_inside hInside rest

theorem emptyList {inner : Text} (hInner : Blank inner) :
    Passes .value ('[' :: (inner ++ [']'])) := by
  refine intro (List.cons_ne_nil _ _) fun rounds gap rest hGap _ _ => ?_
  simp only [List.cons_append, List.append_assoc, List.nil_append, Part.close]
  simp only [skipPart, skipSpace_token hGap (c := '[') (by decide),
    skipSpace_token hInner (c := ']') (by decide)]

theorem emptyObject {inner : Text} (hInner : Blank inner) :
    Passes .value ('\x7b' :: (inner ++ ['\x7d'])) := by
  refine intro (List.cons_ne_nil _ _) fun rounds gap rest hGap _ _ => ?_
  simp only [List.cons_append, List.append_assoc, List.nil_append, Part.close]
  simp only [skipPart, skipSpace_token hGap (c := '\x7b') (by decide),
    skipSpace_token hInner (c := '\x7d') (by decide)]

/-- The elements of a list are passed with a round less. -/
theorem list {inner : Text} (hInner : Blank inner) (hStart : Grammar .elements s)
    (hElements : Passes .elements s) : Passes .value ('[' :: (inner ++ (s ++ [']']))) := by
  obtain ⟨c, more, rfl, hSpace, hClosed, -⟩ := hStart.exists_cons
  refine intro (List.cons_ne_nil _ _) fun rounds gap rest hGap hRounds _ => ?_
  simp only [List.cons_append, List.append_assoc, List.nil_append, Part.close, List.length_cons,
    List.length_append, List.append_nil, List.length_nil] at hRounds ⊢
  rw [skipPart_list (skipSpace_token hGap (by decide) _) (skipSpace_token hInner hSpace _) hClosed]
  refine hElements rounds [] rest blank_nil ?_ (absurd · (by decide))
  simp only [List.cons_append, Part.close, List.length_cons, List.length_append, List.length_nil]
  omega

/-- So are the members of an object. -/
theorem object {inner : Text} (hInner : Blank inner) (hStart : Grammar .members s)
    (hMembers : Passes .members s) : Passes .value ('\x7b' :: (inner ++ (s ++ ['\x7d']))) := by
  obtain ⟨c, more, rfl, hSpace, -, hQuote⟩ := hStart.exists_cons
  obtain rfl := hQuote rfl
  refine intro (List.cons_ne_nil _ _) fun rounds gap rest hGap hRounds _ => ?_
  simp only [List.cons_append, List.append_assoc, List.nil_append, Part.close, List.length_cons,
    List.length_append, List.append_nil, List.length_nil] at hRounds ⊢
  simp only [skipPart, skipSpace_token hGap (c := '\x7b') (by decide),
    skipSpace_token hInner (c := '"') (by decide)]
  refine hMembers rounds [] rest blank_nil ?_ (absurd · (by decide))
  simp only [List.cons_append, Part.close, List.length_cons, List.length_append, List.length_nil]
  omega

section

variable {value behind : Text}

/-- A value with space behind it, up to the mark that ends it. -/
theorem upTo {rounds : Nat} {mark : Char} {gap : Text} (hValue : Passes .value value)
    (hGap : Blank gap) (hBehind : Blank behind) (hMark : mark ∈ [',', ']', '\x7d'])
    (hRounds : 2 * value.length ≤ rounds) (rest : Text) :
    skipPart rounds .value (gap ++ (value ++ (behind ++ mark :: rest))) =
      .ok (behind ++ mark :: rest) := by
  refine hValue rounds gap (behind ++ mark :: rest) hGap ?_ fun _ => ?_
  · rwa [Part.close, List.append_nil]
  · exact endsNumber_append hBehind hMark rest

/-- An element is a value with blanks behind it. -/
theorem lastElement (hStart : Grammar .value value) (hValue : Passes .value value)
    (hBehind : Blank behind) : Passes .elements (value ++ behind) := by
  have hNonempty := List.append_ne_nil_of_left_ne_nil hStart.ne_nil behind
  refine intro hNonempty fun rounds gap rest hGap hRounds _ => ?_
  simp only [List.append_assoc]
  simp only [List.length_append, Part.close, List.length_singleton] at hRounds
  exact skipPart_elements_last (hValue.upTo hGap hBehind (by decide) (by omega) rest)
    (skipSpace_token hBehind (by decide) rest)

/-- Elements are divided by commas. -/
theorem nextElement {front others : Text} (hStart : Grammar .value value)
    (hValue : Passes .value value) (hBehind : Blank behind) (hFront : Blank front)
    (hOthers : Passes .elements others) :
    Passes .elements (value ++ (behind ++ ',' :: (front ++ others))) := by
  have hNonempty := List.append_ne_nil_of_left_ne_nil hStart.ne_nil
    (behind ++ ',' :: (front ++ others))
  refine intro hNonempty fun rounds gap rest hGap hRounds _ => ?_
  simp only [List.append_assoc, List.cons_append]
  simp only [List.length_append, List.length_cons] at hRounds
  rw [skipPart_elements_next (hValue.upTo hGap hBehind (by decide) (by omega) _)
    (skipSpace_token hBehind (by decide) _)]
  refine hOthers rounds front rest hFront ?_ (absurd · (by decide))
  rw [List.length_append]
  omega

variable {key behindKey front : Text}

/-- A member is a key and a value with a colon between them. -/
theorem lastMember (hKey : Inside key) (hBehindKey : Blank behindKey) (hFront : Blank front)
    (hValue : Passes .value value) (hBehind : Blank behind) :
    Passes .members
      ('"' :: (key ++ '"' :: (behindKey ++ ':' :: (front ++ (value ++ behind))))) := by
  refine intro (List.cons_ne_nil _ _) fun rounds gap rest hGap hRounds _ => ?_
  simp only [List.append_assoc, List.cons_append]
  simp only [List.length_append, List.length_cons] at hRounds
  exact skipPart_members_last (skipSpace_token hGap (by decide) _) (skipString_of_inside hKey _)
    (skipSpace_token hBehindKey (by decide) _)
    (hValue.upTo hFront hBehind (by decide) (by omega) rest) (skipSpace_token hBehind (by decide) _)

/-- Members are divided by commas. -/
theorem nextMember {inner others : Text} (hKey : Inside key) (hBehindKey : Blank behindKey)
    (hFront : Blank front) (hValue : Passes .value value) (hBehind : Blank behind)
    (hInner : Blank inner) (hOthers : Passes .members others) :
    Passes .members ('"' :: (key ++ '"' :: (behindKey ++ ':' :: (front ++ (value ++
      (behind ++ ',' :: (inner ++ others))))))) := by
  refine intro (List.cons_ne_nil _ _) fun rounds gap rest hGap hRounds _ => ?_
  simp only [List.append_assoc, List.cons_append]
  simp only [List.length_append, List.length_cons] at hRounds
  rw [skipPart_members_next (skipSpace_token hGap (by decide) _) (skipString_of_inside hKey _)
    (skipSpace_token hBehindKey (by decide) _)
    (hValue.upTo hFront hBehind (by decide) (by omega) _) (skipSpace_token hBehind (by decide) _)]
  refine hOthers rounds inner rest hInner ?_ (absurd · (by decide))
  rw [List.length_append]
  omega

end

end Passes

/-- The induction is on the grammar, for values, elements and members at once. -/
theorem passes_of_grammar {part : Part} {s : Text} (h : Grammar part s) : Passes part s := by
  induction h with
  | keyword hKeyword => exact .keyword hKeyword
  | number hNumber => exact .number hNumber
  | string hInside => exact .string hInside
  | emptyList hGap => exact .emptyList hGap
  | list hGap hElements ih => exact .list hGap hElements ih
  | emptyObject hGap => exact .emptyObject hGap
  | object hGap hMembers ih => exact .object hGap hMembers ih
  | lastElement hValue hBehind ih => exact .lastElement hValue ih hBehind
  | nextElement hValue hBehind hGap _ ih ihOthers =>
      exact .nextElement hValue ih hBehind hGap ihOthers
  | lastMember hKey hBehindKey hFront _ hBehind ih =>
      exact .lastMember hKey hBehindKey hFront ih hBehind
  | nextMember hKey hBehindKey hFront _ hBehind hGap _ ih ihOthers =>
      exact .nextMember hKey hBehindKey hFront ih hBehind hGap ihOthers

/-- A value of the grammar is skipped to its end. -/
theorem skipValue_of_grammar {gap s rest : Text} (hGap : Blank gap) (h : Grammar .value s)
    (hRest : EndsNumber rest) : skipValue (gap ++ (s ++ rest)) = .ok rest := by
  refine passes_of_grammar h _ gap rest hGap ?_ fun _ => hRest
  simp only [Part.close, List.append_nil, List.length_append]
  omega

end TwoPass.Json
