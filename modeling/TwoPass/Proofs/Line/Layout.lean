import TwoPass.Proofs.Line.Parts

/-! Lines as they are written. A layout fixes the parts of a line, all blanks between them and the
comment, and reading the text of a layout gives back its parts. The blank behind the mnemonic keeps
the parts from running into each other: colons and full stops in operands come too late to end a
label or a predicate. -/
namespace TwoPass

namespace Text

/-- Nothing but blanks. -/
abbrev Blanks := { s : Text // s.all isBlank = true }

/-- A word that is not empty. -/
abbrev Word := { s : Text // s.all isWordChar = true ∧ s ≠ [] }

end Text

namespace Line

/-- An operand that can stand in a list: it has no blanks at its ends, and no character that ends it
or changes how the rest of the line is read. Colons and full stops are welcome. -/
abbrev OperandText := { s : Text // Text.trim s = s ∧ ',' ∉ s ∧ '#' ∉ s ∧ '"' ∉ s }

/-- An operand behind a comma, with the blanks on both sides of the comma. -/
structure NextOperand where
  beforeComma : Text.Blanks
  afterComma : Text.Blanks
  operand : OperandText

def NextOperand.text (next : NextOperand) : Text :=
  next.beforeComma ++ ',' :: (next.afterComma ++ next.operand)

/-- One way to write a line down. -/
structure Layout where
  lead : Text.Blanks
  /-- The label and the blanks behind its colon. -/
  label : Option (Text.Word × Text.Blanks)
  /-- A spelling of a predicate, possibly the empty one, and the predicate itself. -/
  predicate : Option { spelling : Text × Predicate // spelling ∈ Predicate.spellings }
  mnemonic : Text.Word
  gap : { s : Text // s.all Text.isBlank = true ∧ s ≠ [] }
  first : OperandText
  others : List NextOperand
  trail : Text.Blanks
  comment : Option Text

namespace Layout

def labelText (layout : Layout) : Text :=
  match layout.label with
  | none => []
  | some (label, blanks) => label ++ ':' :: blanks

def predicateText (layout : Layout) : Text :=
  match layout.predicate with
  | none => []
  | some spelling => spelling.val.1 ++ ['.']

def operandList (layout : Layout) : Text :=
  layout.first ++ layout.others.flatMap NextOperand.text

def afterMnemonic (layout : Layout) : Text :=
  layout.gap ++ (layout.operandList ++ layout.trail)

/-- What is written behind the label. -/
def statementText (layout : Layout) : Text :=
  layout.predicateText ++ (layout.mnemonic ++ layout.afterMnemonic)

/-- What is written in front of the comment. -/
def code (layout : Layout) : Text := layout.lead ++ (layout.labelText ++ layout.statementText)

/-- The line as it is written. -/
def text (layout : Layout) : Text :=
  match layout.comment with
  | none => layout.code
  | some comment => layout.code ++ '#' :: comment

/-- The parts that the line is made of. Without a predicate, the instruction always takes effect. -/
def line (layout : Layout) : Line where
  label := layout.label.map fun (label, _) => label.val
  predicate := layout.predicate.elim .always fun spelling => spelling.val.2
  mnemonic := some layout.mnemonic.val
  operandText := Text.trim layout.operandList
  operands := layout.first.val :: layout.others.map fun next => next.operand.val

variable (layout : Layout)

/-- A character that belongs to no blank, word or operand and is none of the marks between them
does not occur in front of the comment. -/
theorem not_mem_code {c : Char} (hBlank : Text.isBlank c = false)
    (hWord : Text.isWordChar c = false) (hMark : c ∉ [':', '.', ','])
    (hOperand : ∀ operand : OperandText, c ∉ operand.val) : c ∉ layout.code := by
  have hBlanks : ∀ blanks : Text, blanks.all Text.isBlank = true → c ∉ blanks :=
    fun blanks hAll => Text.not_mem_of_all hAll hBlank
  have hWords : ∀ word : Text, word.all Text.isWordChar = true → c ∉ word :=
    fun word hAll => Text.not_mem_of_all hAll hWord
  simp only [List.mem_cons, List.not_mem_nil, or_false, not_or] at hMark
  have hLabel : c ∉ layout.labelText := by
    unfold labelText
    split
    · simp
    · next label blanks _ =>
        simp [hWords label label.property.1, hBlanks blanks blanks.property, hMark]
  have hPredicate : c ∉ layout.predicateText := by
    unfold predicateText
    split
    · simp
    · next spelling _ =>
        simp [hWords _ (Predicate.all_isWordChar_of_mem_spellings spelling.property), hMark]
  have hOthers : c ∉ layout.others.flatMap NextOperand.text := by
    rw [List.mem_flatMap]
    rintro ⟨next, -, hMem⟩
    simp [NextOperand.text, hBlanks _ next.beforeComma.property,
      hBlanks _ next.afterComma.property, hOperand next.operand, hMark] at hMem
  simp [code, statementText, afterMnemonic, operandList, hLabel, hPredicate, hOthers, hOperand,
    hBlanks _ layout.lead.property, hWords _ layout.mnemonic.property.1,
    hBlanks _ layout.gap.property.1, hBlanks _ layout.trail.property]

/-- The comment of a layout is taken off as a whole. -/
theorem stripComment_text : stripComment layout.text = layout.code := by
  have hHash : '#' ∉ layout.code :=
    layout.not_mem_code (by decide) (by decide) (by decide) fun operand => operand.property.2.2.1
  have hQuote : '"' ∉ layout.code :=
    layout.not_mem_code (by decide) (by decide) (by decide) fun operand => operand.property.2.2.2
  have hCode : stripComment layout.code = layout.code := stripComment_of_not_mem hHash
  unfold text
  split
  · exact hCode
  · next comment _ =>
      have hEven : Even ((stripComment layout.code).count '"') := by
        rw [hCode, List.count_eq_zero.mpr hQuote]
        exact Even.zero
      rw [stripComment_append_hash hEven, hCode]

/-- The mnemonic is followed by a blank. -/
theorem exists_afterMnemonic_eq :
    ∃ blank rest, layout.afterMnemonic = blank :: rest ∧ Text.isBlank blank = true := by
  obtain ⟨blank, more, hGap⟩ := List.exists_cons_of_ne_nil layout.gap.property.2
  refine ⟨blank, more ++ (layout.operandList ++ layout.trail), by rw [afterMnemonic, hGap]; rfl, ?_⟩
  exact List.all_eq_true.mp layout.gap.property.1 blank (by simp [hGap])

/-- The statement starts with a word, which may be empty, and no colon follows that word. -/
theorem exists_statementText_eq :
    ∃ word rest, layout.statementText = word ++ rest ∧ word.all Text.isWordChar = true ∧
      (word = [] → Text.trimStart rest = rest) ∧
      ∀ c, rest.head? = some c → Text.isWordChar c = false ∧ c ≠ ':' := by
  unfold statementText predicateText
  split
  · obtain ⟨blank, rest, hAfter, hBlank⟩ := layout.exists_afterMnemonic_eq
    refine ⟨layout.mnemonic, layout.afterMnemonic, rfl, layout.mnemonic.property.1,
      fun hNil => absurd hNil layout.mnemonic.property.2, ?_⟩
    rw [hAfter]
    rintro c ⟨⟩
    exact ⟨Text.isWordChar_of_isBlank hBlank, Text.ne_of_isBlank hBlank (by decide)⟩
  · next spelling _ =>
      refine ⟨spelling.val.1, '.' :: (layout.mnemonic ++ layout.afterMnemonic),
        List.append_assoc .., Predicate.all_isWordChar_of_mem_spellings spelling.property,
        fun _ => Text.trimStart_cons (by decide) _, ?_⟩
      rintro c ⟨⟩
      decide

/-- The label of a layout is the one that is read. -/
theorem splitLabel_code :
    (splitLabel layout.code).1 = layout.line.label ∧
      Text.trimStart (splitLabel layout.code).2 = layout.statementText := by
  obtain ⟨word, rest, hStatement, hWord, hNil, hStop⟩ := layout.exists_statementText_eq
  have hTrim : Text.trimStart layout.statementText = layout.statementText := by
    rw [hStatement, Text.trimStart_word_append hWord hNil]
  unfold code labelText
  split
  · next hLabel =>
      have hNone := splitLabel_of_stop layout.lead.property hWord hNil hStop
      rw [← hStatement] at hNone
      rw [List.nil_append, hNone, Text.trimStart_blanks_append layout.lead.property, hTrim]
      simp [line, hLabel]
  · next label blanks hLabel =>
      have hSome := splitLabel_of_colon layout.lead.property label.property.1 label.property.2
        (blanks ++ layout.statementText)
      rw [List.append_assoc, List.cons_append, hSome, Text.trimStart_blanks_append blanks.property,
        hTrim]
      simp [line, hLabel]

/-- So is its predicate, whether or not it is written. -/
theorem splitPredicate_statementText :
    splitPredicate layout.statementText =
      (layout.line.predicate, layout.mnemonic ++ layout.afterMnemonic) := by
  unfold statementText predicateText
  split
  · next hPredicate =>
      obtain ⟨blank, rest, hAfter, hBlank⟩ := layout.exists_afterMnemonic_eq
      rw [List.nil_append, hAfter, splitPredicate_of_blank layout.mnemonic.property.1 hBlank]
      simp [line, hPredicate]
  · next spelling hPredicate =>
      rw [List.append_assoc, List.singleton_append,
        splitPredicate_of_spelling spelling.property]
      simp [line, hPredicate]

/-- The mnemonic is read up to the blank behind it. -/
theorem splitWord_mnemonic :
    Text.splitWord (layout.mnemonic ++ layout.afterMnemonic) =
      (layout.mnemonic.val, layout.afterMnemonic) := by
  obtain ⟨blank, rest, hAfter, hBlank⟩ := layout.exists_afterMnemonic_eq
  apply Text.splitWord_append_of_stop layout.mnemonic.property.1
  rw [hAfter]
  rintro c ⟨⟩
  exact Text.isWordChar_of_isBlank hBlank

theorem trim_afterMnemonic : Text.trim layout.afterMnemonic = Text.trim layout.operandList := by
  rw [afterMnemonic, Text.trim_blanks_append layout.gap.property.1,
    Text.trim_append_blanks layout.trail.property]

/-- The induction goes from comma to comma, and at each of them the item in front still has blanks
around it. -/
theorem splitList_next {item : Text} (h : ',' ∉ item) (others : List NextOperand) :
    Text.splitList (item ++ others.flatMap NextOperand.text) =
      Text.trim item :: others.map fun next => next.operand.val := by
  induction others generalizing item with
  | nil => simpa using Text.splitList_of_not_mem h
  | cons next others ih =>
      have hBlanks : ∀ blanks : Text.Blanks, ',' ∉ blanks.val :=
        fun blanks => Text.not_mem_of_all blanks.property (by decide)
      have hItem : Text.splitList (item ++ next.beforeComma) = [Text.trim item] := by
        rw [Text.splitList_of_not_mem (by simp [h, hBlanks]),
          Text.trim_append_blanks next.beforeComma.property]
      have hOperand : Text.trim (next.afterComma ++ next.operand) = next.operand.val := by
        rw [Text.trim_blanks_append next.afterComma.property, next.operand.property.1]
      have hComma : ',' ∉ (next.afterComma ++ next.operand : Text) := by
        simp [hBlanks, next.operand.property.2.1]
      calc Text.splitList (item ++ (next :: others).flatMap NextOperand.text)
          = Text.splitList ((item ++ next.beforeComma) ++
              ',' :: ((next.afterComma ++ next.operand) ++ others.flatMap NextOperand.text)) := by
            simp [NextOperand.text]
        _ = Text.trim item :: next.operand.val :: others.map fun next => next.operand.val := by
            rw [Text.splitList_append_comma, hItem, ih hComma, hOperand]
            rfl

/-- The operands are read without the blanks around them. -/
theorem splitList_operandList : Text.splitList layout.operandList = layout.line.operands := by
  rw [operandList, splitList_next layout.first.property.2.1, layout.first.property.1]
  rfl

end Layout

/-- Reading a line gives back the parts that were written, whatever blanks stand between them and
whatever the comment says. -/
theorem layouts_read_back (layout : Layout) : parse layout.text = layout.line := by
  obtain ⟨hLabel, hStatement⟩ := layout.splitLabel_code
  have hNonempty : layout.mnemonic.val.isEmpty = false := by
    simpa using layout.mnemonic.property.2
  unfold parse
  rw [layout.stripComment_text]
  dsimp only
  rw [hLabel, hStatement, layout.splitPredicate_statementText]
  dsimp only
  rw [layout.splitWord_mnemonic]
  dsimp only
  rw [layout.trim_afterMnemonic, Text.splitList_trim, layout.splitList_operandList, hNonempty]
  rfl

/-- A line with a full stop and a colon in an operand, an empty operand, a tabulator and an
ideographic space, and all kinds of marks in the comment. -/
def crowded : Layout where
  lead := ⟨['\u3000'], by decide⟩
  label := some (⟨"loop".toList, by decide⟩, ⟨[], rfl⟩)
  predicate := some ⟨("nz".toList, .notZero), by decide⟩
  mnemonic := ⟨"add".toList, by decide⟩
  gap := ⟨['\t'], by decide⟩
  first := ⟨"r1".toList, by decide⟩
  others :=
    [⟨⟨[' '], by decide⟩, ⟨[' '], by decide⟩, ⟨"z.b:c".toList, by decide⟩⟩,
      ⟨⟨[], rfl⟩, ⟨[], rfl⟩, ⟨[], by decide⟩⟩,
      ⟨⟨[], rfl⟩, ⟨[' '], by decide⟩, ⟨"0x10".toList, by decide⟩⟩]
  trail := ⟨[' '], by decide⟩
  comment := some " mi.x: \"y\", #".toList

theorem layouts_read_back_crowded :
    crowded.text = "\u3000loop:nz.add\tr1 , z.b:c,, 0x10 # mi.x: \"y\", #".toList ∧
      parse "\u3000loop:nz.add\tr1 , z.b:c,, 0x10 # mi.x: \"y\", #".toList =
        ⟨some "loop".toList, .notZero, some "add".toList, "r1 , z.b:c,, 0x10".toList,
          ["r1".toList, "z.b:c".toList, [], "0x10".toList]⟩ := by
  have hText : crowded.text =
      "\u3000loop:nz.add\tr1 , z.b:c,, 0x10 # mi.x: \"y\", #".toList := by decide
  refine ⟨hText, ?_⟩
  rw [← hText, layouts_read_back]
  decide

end Line

end TwoPass
