import Mathlib.Algebra.Group.Nat.Even
import TwoPass.Line
import TwoPass.Proofs.Text.Parts

namespace TwoPass

theorem stripCommentFrom_of_not_mem {line : Text} (h : '#' ∉ line) (quoted : Bool) :
    stripCommentFrom quoted line = line := by
  induction line generalizing quoted with
  | nil => rfl
  | cons c rest ih =>
      rw [List.mem_cons, not_or] at h
      have hHash : ¬(c = '#' ∧ ¬quoted) := fun hBoth => h.1 hBoth.1.symm
      rw [stripCommentFrom, ih h.2, ih h.2, if_neg hHash, ite_self]

/-- Without a mark there is no comment. -/
theorem stripComment_of_not_mem {line : Text} (h : '#' ∉ line) : stripComment line = line :=
  stripCommentFrom_of_not_mem h false

/-- A hash sign at the end starts a comment if all quotes in front of it are closed. Where there is
a comment already, what is left of the line has all its quotes closed, and the comment grows. -/
theorem stripCommentFrom_append_hash {quoted : Bool} {line : Text}
    (h : Even ((stripCommentFrom quoted line).count '"' + quoted.toNat)) (comment : Text) :
    stripCommentFrom quoted (line ++ '#' :: comment) = stripCommentFrom quoted line := by
  fun_induction stripCommentFrom quoted line with
  | case1 quoted =>
      cases quoted with
      | false => rfl
      | true => simp at h
  | case2 quoted rest ih =>
      have hRest : Even ((stripCommentFrom (!quoted) rest).count '"' + (!quoted).toNat) := by
        rw [List.count_cons_self] at h
        cases quoted with
        | false => simpa using h
        | true => simpa [Nat.even_add_one] using h
      rw [List.cons_append, stripCommentFrom, if_pos rfl, ih hRest]
  | case3 quoted c rest hQuote hHash =>
      rw [List.cons_append, stripCommentFrom, if_neg hQuote, if_pos hHash]
  | case4 quoted c rest hQuote hHash ih =>
      rw [List.count_cons_of_ne hQuote] at h
      rw [List.cons_append, stripCommentFrom, if_neg hQuote, if_neg hHash, ih h]

/-- A mark outside quotes starts a comment. -/
theorem stripComment_append_hash {line : Text} (h : Even ((stripComment line).count '"'))
    (comment : Text) : stripComment (line ++ '#' :: comment) = stripComment line :=
  @stripCommentFrom_append_hash false line h comment

namespace Predicate

variable {token : Text} {predicate : Predicate}

/-- No spelling stands for two predicates. -/
theorem ofText?_of_mem_spellings (h : (token, predicate) ∈ spellings) :
    ofText? token = some predicate := by
  have hAll : ∀ entry ∈ spellings, ofText? entry.1 = some entry.2 := by decide
  exact hAll _ h

theorem all_isWordChar_of_mem_spellings (h : (token, predicate) ∈ spellings) :
    token.all Text.isWordChar = true := by
  have hAll : ∀ entry ∈ spellings, entry.1.all Text.isWordChar = true := by decide
  exact hAll _ h

/-- Only spellings are read as predicates. -/
theorem mem_spellings_of_ofText? (h : ofText? token = some predicate) :
    (token, predicate) ∈ spellings := by
  obtain ⟨front, back, hEq, -⟩ := List.lookup_eq_some_iff.mp h
  rw [hEq]
  simp

end Predicate

section

variable {lead word rest : Text} {c : Char}

/-- A word in front of a colon is a label, with blanks before it or not. -/
theorem splitLabel_of_colon (hLead : lead.all Text.isBlank = true)
    (hWord : word.all Text.isWordChar = true) (hNonempty : word ≠ []) (rest : Text) :
    splitLabel (lead ++ (word ++ ':' :: rest)) = (some word, rest) := by
  have hSplit : Text.splitWord (word ++ ':' :: rest) = (word, ':' :: rest) :=
    Text.splitWord_append_of_stop hWord (by rintro c ⟨⟩; decide)
  rw [splitLabel, Text.trimStart_blanks_append hLead,
    Text.trimStart_word_append hWord (fun hNil => absurd hNil hNonempty), hSplit]
  obtain ⟨first, others, rfl⟩ := List.exists_cons_of_ne_nil hNonempty
  rfl

/-- A word is no label if anything else than a colon follows it. -/
theorem splitLabel_of_stop (hLead : lead.all Text.isBlank = true)
    (hWord : word.all Text.isWordChar = true) (hNil : word = [] → Text.trimStart rest = rest)
    (hStop : ∀ c, rest.head? = some c → Text.isWordChar c = false ∧ c ≠ ':') :
    splitLabel (lead ++ (word ++ rest)) = (none, lead ++ (word ++ rest)) := by
  have hSplit : Text.splitWord (word ++ rest) = (word, rest) :=
    Text.splitWord_append_of_stop hWord fun c hHead => (hStop c hHead).1
  rw [splitLabel, Text.trimStart_blanks_append hLead, Text.trimStart_word_append hWord hNil, hSplit]
  split
  · rfl
  · next hEq =>
      cases hEq
      exact absurd rfl (hStop ':' rfl).2
  · rfl

/-- A text has a label, or it is left as it is. -/
theorem splitLabel_cases (s : Text) :
    splitLabel s = (none, s) ∨
      ∃ lead label rest, s = lead ++ (label ++ ':' :: rest) ∧ lead.all Text.isBlank = true ∧
        label.all Text.isWordChar = true ∧ label ≠ [] ∧ splitLabel s = (some label, rest) := by
  obtain ⟨lead, hLead, hTrim⟩ := Text.exists_trimStart s
  have hAppend := Text.splitWord_append (Text.trimStart s)
  have hWord : (Text.splitWord (Text.trimStart s)).1.all Text.isWordChar = true :=
    List.all_takeWhile
  unfold splitLabel
  split
  · exact .inl rfl
  · next word rest hNonempty hSplit =>
      rw [hSplit] at hAppend hWord
      rw [← hAppend] at hTrim
      exact .inr ⟨lead, word, rest, hTrim, hLead, hWord, hNonempty, rfl⟩
  · exact .inl rfl

/-- A label is always a word. -/
theorem splitLabel_isWord {s label : Text} (h : (splitLabel s).1 = some label) :
    label.all Text.isWordChar = true := by
  rcases splitLabel_cases s with hNone | ⟨lead, word, rest, -, -, hWord, -, hSome⟩
  · rw [hNone] at h
    cases h
  · rw [hSome] at h
    cases h
    exact hWord

/-- A spelling in front of a point is a predicate. -/
theorem splitPredicate_of_spelling {token : Text} {predicate : Predicate}
    (h : (token, predicate) ∈ Predicate.spellings) (rest : Text) :
    splitPredicate (token ++ '.' :: rest) = (predicate, rest) := by
  have hToken : '.' ∉ token :=
    Text.not_mem_of_all (Predicate.all_isWordChar_of_mem_spellings h) (by decide)
  rw [splitPredicate, Text.cutFirst_append hToken]
  simp only [Predicate.ofText?_of_mem_spellings h]

/-- A text has a predicate, or it is left as it is. -/
theorem splitPredicate_cases (s : Text) :
    (∃ token predicate rest, (token, predicate) ∈ Predicate.spellings ∧
      s = token ++ '.' :: rest ∧ splitPredicate s = (predicate, rest)) ∨
    (∀ token predicate rest, (token, predicate) ∈ Predicate.spellings →
      s ≠ token ++ '.' :: rest) ∧ splitPredicate s = (.always, s) := by
  by_cases hPrefix : ∃ token predicate rest, (token, predicate) ∈ Predicate.spellings ∧
      s = token ++ '.' :: rest
  · obtain ⟨token, predicate, rest, hToken, rfl⟩ := hPrefix
    exact .inl ⟨token, predicate, rest, hToken, rfl, splitPredicate_of_spelling hToken rest⟩
  · have hNone : ∀ token predicate rest, (token, predicate) ∈ Predicate.spellings →
        s ≠ token ++ '.' :: rest :=
      fun token predicate rest hToken hEq => hPrefix ⟨token, predicate, rest, hToken, hEq⟩
    refine .inr ⟨hNone, ?_⟩
    by_cases hDot : '.' ∈ s
    · obtain ⟨before, after, rfl, hBefore⟩ := List.eq_append_cons_of_mem hDot
      have hToken : Predicate.ofText? before = none := by
        rw [Option.eq_none_iff_forall_ne_some]
        intro predicate hSome
        exact hNone before predicate after (Predicate.mem_spellings_of_ofText? hSome) rfl
      rw [splitPredicate, Text.cutFirst_append hBefore]
      simp only [hToken]
    · rw [splitPredicate, Text.cutFirst_of_not_mem hDot]

/-- A full stop behind a blank ends no predicate, because none is spelled with a blank. -/
theorem splitPredicate_of_blank (hWord : word.all Text.isWordChar = true)
    (hc : Text.isBlank c = true) (rest : Text) :
    splitPredicate (word ++ c :: rest) = (.always, word ++ c :: rest) := by
  have hWordDot : '.' ∉ word := Text.not_mem_of_all hWord (by decide)
  have hBlankDot : '.' ≠ c := (Text.ne_of_isBlank hc (by decide)).symm
  by_cases hDot : '.' ∈ rest
  · obtain ⟨before, after, rfl, hBefore⟩ := List.eq_append_cons_of_mem hDot
    have hNone : Predicate.ofText? (word ++ c :: before) = none := by
      rw [Option.eq_none_iff_forall_ne_some]
      intro predicate hSome
      have hAll :=
        Predicate.all_isWordChar_of_mem_spellings (Predicate.mem_spellings_of_ofText? hSome)
      simp [Text.isWordChar_of_isBlank hc] at hAll
    have hToken : '.' ∉ word ++ c :: before := by simp [hWordDot, hBlankDot, hBefore]
    have hCut := Text.cutFirst_append hToken after
    rw [List.append_assoc, List.cons_append] at hCut
    rw [splitPredicate, hCut]
    simp only [hNone]
  · rw [splitPredicate, Text.cutFirst_of_not_mem (by simp [hWordDot, hBlankDot, hDot])]

end

end TwoPass
