import TwoPass.Macro.Basic
import TwoPass.Proofs.Line.Layout

/-! Lines whose operands may be anything. What stands in front of the mnemonic has neither a quote
nor a hash sign, so a comment is looked for as if the line started behind the mnemonic. If a blank
follows the mnemonic, nothing behind it can be taken for a label or a predicate. -/
namespace TwoPass

/-- Text without quotes and marks does not change where a comment starts. -/
theorem stripCommentFrom_append_of_not_mem {s : Text} (hQuote : '"' ∉ s) (hHash : '#' ∉ s)
    (quoted : Bool) (t : Text) :
    stripCommentFrom quoted (s ++ t) = s ++ stripCommentFrom quoted t := by
  induction s with
  | nil => rfl
  | cons c s ih =>
      rw [List.mem_cons, not_or] at hQuote hHash
      have hComment : ¬(c = '#' ∧ ¬quoted) := fun hBoth => hHash.1 hBoth.1.symm
      rw [List.cons_append, stripCommentFrom, if_neg (Ne.symm hQuote.1), if_neg hComment,
        ih hQuote.2 hHash.2]
      rfl

namespace Line

/-- What stands in front of the mnemonic: blanks, and possibly a label with its colon and the blanks
behind it. -/
structure Front where
  lead : Text.Blanks
  label : Option (Text.Word × Text.Blanks)

namespace Front

def text (front : Front) : Text :=
  match front.label with
  | none => front.lead
  | some (label, blanks) => front.lead ++ (label ++ ':' :: blanks)

/-- The label itself. -/
def name (front : Front) : Option Text := front.label.map fun (label, _) => label.val

variable (front : Front) {word rest : Text}

/-- The front of a line is made of blanks, a word and a colon. -/
theorem not_mem_text {c : Char} (hBlank : Text.isBlank c = false)
    (hWord : Text.isWordChar c = false) (hColon : c ≠ ':') : c ∉ front.text := by
  have hLead : c ∉ front.lead.val := Text.not_mem_of_all front.lead.property hBlank
  unfold text
  split
  · exact hLead
  · next label blanks _ =>
      simp [hLead, Text.not_mem_of_all label.property.1 hWord,
        Text.not_mem_of_all blanks.property hBlank, hColon]

/-- The word behind the front is no label, as long as no colon follows it directly. -/
theorem splitLabel_text (hWord : word.all Text.isWordChar = true) (hNonempty : word ≠ [])
    (hStop : ∀ c, rest.head? = some c → Text.isWordChar c = false ∧ c ≠ ':') :
    (splitLabel (front.text ++ (word ++ rest))).1 = front.name ∧
      Text.trimStart (splitLabel (front.text ++ (word ++ rest))).2 = word ++ rest := by
  have hNil : word = [] → Text.trimStart rest = rest := fun h => absurd h hNonempty
  have hTrim := Text.trimStart_word_append hWord hNil
  unfold text name
  cases front.label with
  | none =>
      rw [splitLabel_of_stop front.lead.property hWord hNil hStop,
        Text.trimStart_blanks_append front.lead.property]
      exact ⟨rfl, hTrim⟩
  | some label =>
      obtain ⟨label, blanks⟩ := label
      have hSome := splitLabel_of_colon front.lead.property label.property.1 label.property.2
        (blanks ++ (word ++ rest))
      simp only [List.append_assoc, List.cons_append, hSome,
        Text.trimStart_blanks_append blanks.property]
      exact ⟨rfl, hTrim⟩

variable (mnemonic : Text.Word) {blank : Char}

/-- A line with a blank behind its mnemonic. -/
def line (blank : Char) (rest : Text) : Text := front.text ++ (mnemonic ++ blank :: rest)

/-- A comment can only start behind the mnemonic. -/
theorem stripComment_line (hBlank : Text.isBlank blank = true) (rest : Text) :
    stripComment (front.line mnemonic blank rest) =
      front.line mnemonic blank (stripComment rest) := by
  have hNone : ∀ {c : Char}, Text.isBlank c = false → Text.isWordChar c = false → c ≠ ':' →
      c ∉ front.text ++ (mnemonic ++ [blank]) := by
    intro c hc hChar hColon
    simp [front.not_mem_text hc hChar hColon, Text.not_mem_of_all mnemonic.property.1 hChar,
      (Text.ne_of_isBlank hBlank hc).symm]
  have hAppend := stripCommentFrom_append_of_not_mem (hNone (by decide) (by decide) (by decide))
    (hNone (by decide) (by decide) (by decide)) false rest
  simp only [List.append_assoc, List.singleton_append] at hAppend
  exact hAppend

/-- The label is read off the front, and the mnemonic comes next. -/
theorem splitLabel_line (hBlank : Text.isBlank blank = true) (rest : Text) :
    (splitLabel (front.line mnemonic blank rest)).1 = front.name ∧
      Text.trimStart (splitLabel (front.line mnemonic blank rest)).2 =
        mnemonic ++ blank :: rest := by
  apply front.splitLabel_text mnemonic.property.1 mnemonic.property.2
  rintro c ⟨⟩
  exact ⟨Text.isWordChar_of_isBlank hBlank, Text.ne_of_isBlank hBlank (by decide)⟩

end Front

section

variable (front : Front) (mnemonic : Text.Word) {blank : Char}

/-- The mnemonic ends at the blank. -/
theorem splitWord_mnemonic (hBlank : Text.isBlank blank = true) (rest : Text) :
    Text.splitWord (mnemonic ++ blank :: rest) = (mnemonic.val, blank :: rest) := by
  apply Text.splitWord_append_of_stop mnemonic.property.1
  rintro c ⟨⟩
  exact Text.isWordChar_of_isBlank hBlank

/-- Where a blank follows the mnemonic, all that is left of the line without its comment is the text
of the operands. -/
theorem parse_line (hBlank : Text.isBlank blank = true) (rest : Text) :
    parse (front.line mnemonic blank rest) =
      { label := front.name
        predicate := .always
        mnemonic := some mnemonic.val
        operandText := Text.trim (stripComment rest)
        operands := Text.splitList (stripComment rest) } := by
  obtain ⟨hLabel, hRest⟩ := front.splitLabel_line mnemonic hBlank (stripComment rest)
  have hNonempty : mnemonic.val.isEmpty = false := by simpa using mnemonic.property.2
  have hTrim : Text.trim (blank :: stripComment rest) = Text.trim (stripComment rest) :=
    Text.trim_blanks_append (show [blank].all Text.isBlank = true by simp [hBlank]) _
  unfold parse
  rw [front.stripComment_line mnemonic hBlank]
  dsimp only
  rw [hLabel, hRest, splitPredicate_of_blank mnemonic.property.1 hBlank]
  dsimp only
  rw [splitWord_mnemonic mnemonic hBlank]
  dsimp only
  rw [hTrim, Text.splitList_trim, hNonempty]
  rfl

/-- Without a parenthesis right behind its mnemonic, a line calls nothing. -/
theorem call?_line (hBlank : Text.isBlank blank = true) {rest : Text}
    (hOpen : (Text.trimStart (stripComment rest)).head? ≠ some '(') :
    Macro.call? (front.line mnemonic blank rest) = none := by
  obtain ⟨-, hRest⟩ := front.splitLabel_line mnemonic hBlank (stripComment rest)
  have hTrim : Text.trimStart (blank :: stripComment rest) = Text.trimStart (stripComment rest) :=
    Text.trimStart_blanks_append (show [blank].all Text.isBlank = true by simp [hBlank]) _
  have hNone : Macro.nameAndList? (splitLabel (front.line mnemonic blank (stripComment rest))).2 =
      none := by
    rw [Macro.nameAndList?, hRest, splitWord_mnemonic mnemonic hBlank]
    dsimp only
    rw [hTrim]
    split
    · next inside hInside =>
        rw [hInside] at hOpen
        exact absurd rfl hOpen
    · rfl
  unfold Macro.call?
  rw [front.stripComment_line mnemonic hBlank]
  dsimp only
  rw [hNone]

end

end Line

end TwoPass
