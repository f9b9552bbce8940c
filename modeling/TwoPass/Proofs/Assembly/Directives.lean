import TwoPass.Proofs.Assembly.Definitions
import TwoPass.Proofs.Assembly.Numbering
import TwoPass.Proofs.Line.Front
import TwoPass.Proofs.Macro.Fixpoint
import TwoPass.Proofs.StringData.Packing

/-! Lines with directives, as they are written. The text of a string goes through everything that
cuts a line up, from macro calls to quotes, and comes out as it was. A constant can be written in
two ways, which are read along different routes and meet again. -/
namespace TwoPass

theorem Text.all_isBlank_space : [' '].all isBlank = true := by decide

namespace State

/-- The state in which the mnemonic of a line is met: the label in front of it has been defined as
the location counter. -/
def behind (state : State) (front : Line.Front) : State :=
  match front.name with
  | none => state
  | some label => { state with symbols := state.symbols.define label state.counter.toNat }

variable (state : State) (front : Line.Front)

@[simp] theorem behind_counter : (state.behind front).counter = state.counter := by
  unfold behind
  split <;> rfl

@[simp] theorem behind_image : (state.behind front).image = state.image := by
  unfold behind
  split <;> rfl

/-- A line is processed by defining the label in front of its mnemonic and then carrying out its
statement. -/
theorem result_step_line {mnemonic : Text.Word} {blank : Char} {rest : Text} {statement : Statement}
    (hBlank : Text.isBlank blank = true)
    (hStatement : (Line.parse (front.line mnemonic blank rest)).statement = .ok statement)
    (sizing : Sizing) (pass : Pass) (number : Nat) :
    (state.step sizing pass ⟨number, front.line mnemonic blank rest⟩).result =
      (statement.perform sizing pass (state.behind front)).result.mapError
        (StreamLine.expressionError ⟨number, front.line mnemonic blank rest⟩) := by
  have hLabel : StreamLine.label ⟨number, front.line mnemonic blank rest⟩ = front.name := by
    rw [StreamLine.label, Line.parse_line front mnemonic hBlank]
  have hLabelled : state.labelled ⟨number, front.line mnemonic blank rest⟩ =
      state.behind front := by
    rw [labelled, hLabel]
    rfl
  have hAsked : StreamLine.statement ⟨number, front.line mnemonic blank rest⟩ = .ok statement :=
    hStatement
  rw [result_step, hAsked, hLabelled]

end State

section Strings

/-- The low bytes of the characters of a text, and the zero that ends a string. -/
def StringData.bytes (text : Text) : List UInt16 :=
  text.map (fun c => UInt16.ofNat (c.toNat % 256)) ++ [0]

/-- A line with a text between double quotes. -/
def Line.Front.quoting (front : Front) (directive : Text.Word) (text : Text) : Text :=
  front.line directive ' ' ('"' :: (text ++ ['"']))

/-- A line that calls no macro and places given words at the location counter, whatever the macros
and the state are. The sizing pass leaves as much room as the words take. -/
structure Line.Front.Places (front : Front) (line : Text) (words : List UInt16) : Prop where
  expands : ∀ macros, Macro.expand macros line = pure [line]
  emits : ∀ sizing state number, (State.step sizing .emit state ⟨number, line⟩).result =
    .ok ({ state.behind front with
      counter := state.counter + .ofNat words.length
      image := state.image.write state.counter.toNat words }, words)
  measures : ∀ sizing state number, (State.step sizing .sizing state ⟨number, line⟩).result =
    .ok ({ state.behind front with counter := state.counter + .ofNat words.length }, [])

variable {text : Text}

/-- Between quotes no hash sign starts a comment. -/
theorem stripComment_quoted (h : '"' ∉ text) :
    stripComment ('"' :: (text ++ ['"'])) = '"' :: (text ++ ['"']) := by
  have hInside : ∀ {s : Text}, '"' ∉ s → stripCommentFrom true (s ++ ['"']) = s ++ ['"'] := by
    intro s hs
    induction s with
    | nil => rfl
    | cons c s ih =>
        rw [List.mem_cons, not_or] at hs
        rw [List.cons_append, stripCommentFrom, if_neg (Ne.symm hs.1), if_neg (by simp), ih hs.2]
  rw [stripComment, stripCommentFrom, if_pos rfl]
  exact congrArg _ (hInside h)

/-- Blanks at the ends of a text are safe between the quotes. -/
theorem Text.trim_quoted (text : Text) :
    trim ('"' :: (text ++ ['"'])) = '"' :: (text ++ ['"']) := by
  rw [trim, trimStart_cons (by decide), trimEnd, ← List.cons_append, List.reverse_append]
  change (trimStart ('"' :: ('"' :: text).reverse)).reverse = _
  rw [trimStart_cons (by decide), List.reverse_cons, List.reverse_reverse]

theorem StringData.unquote_quoted (h : '"' ∉ text) : unquote ('"' :: (text ++ ['"'])) = text := by
  have hKept : ∀ {s : Text}, '"' ∉ s → s.dropWhile (· == '"') = s := by
    intro s hs
    cases s with
    | nil => rfl
    | cons c s =>
        rw [List.mem_cons, not_or] at hs
        exact List.dropWhile_cons_of_neg (by simpa using Ne.symm hs.1)
  have hFirst : ('"' :: (text ++ ['"'])).dropWhile (· == '"') =
      (text ++ ['"']).dropWhile (· == '"') := rfl
  cases text with
  | nil => rfl
  | cons c text =>
      have hc : c ≠ '"' := fun hEq => h (by simp [hEq])
      have hStart : (c :: text ++ ['"']).dropWhile (· == '"') = c :: text ++ ['"'] :=
        List.dropWhile_cons_of_neg (by simpa using hc)
      have hEnd : ((c :: text ++ ['"']).reverse).dropWhile (· == '"') = (c :: text).reverse := by
        rw [List.reverse_append]
        exact hKept (s := (c :: text).reverse) fun hMem => h (List.mem_reverse.mp hMem)
      rw [unquote, hFirst, hStart, hEnd, List.reverse_reverse]

theorem StringData.plain_quoted (h : '"' ∉ text) : plain ('"' :: (text ++ ['"'])) = bytes text := by
  rw [plain, Text.trim_quoted, unquote_quoted h, bytes]

/-- The text of a string is the operand of its line. -/
theorem Line.parse_quoting (front : Front) (directive : Text.Word) (h : '"' ∉ text) :
    parse (front.quoting directive text) =
      { label := front.name
        predicate := .always
        mnemonic := some directive.val
        operandText := '"' :: (text ++ ['"'])
        operands := Text.splitList ('"' :: (text ++ ['"'])) } := by
  rw [Front.quoting, parse_line front directive (by decide), stripComment_quoted h,
    Text.trim_quoted]

theorem Line.Front.places_quoting (front : Front) {directive : Text.Word} {words : List UInt16}
    (h : '"' ∉ text)
    (hStatement : (parse (front.quoting directive text)).statement = .ok (.characters words)) :
    front.Places (front.quoting directive text) words := by
  constructor
  · intro macros
    apply Macro.expand_of_callOf?
    have hCall : Macro.call? (front.quoting directive text) = none := by
      apply Line.call?_line front directive (by decide)
      rw [stripComment_quoted h, Text.trimStart_cons (by decide)]
      simp
    rw [Macro.callOf?, hCall]
    rfl
  · intro sizing state number
    rw [quoting, state.result_step_line front (by decide) hStatement,
      Statement.perform_emit_of_places rfl]
    simp [Statement.words, ok_bind, mapError_ok]
  · intro sizing state number
    rw [quoting, state.result_step_line front (by decide) hStatement,
      Statement.perform_sizing_of_places rfl]
    simp [Statement.size, mapError_ok]

/-- Whatever stands between the quotes of a string, its line is no macro call, and it places the low
byte of each character, in order, and a zero. The packed form places the same bytes two to a word,
the first one in the low half. In front of the mnemonic there may be a label, which is defined. -/
theorem strings_survive (front : Line.Front) (h : '"' ∉ text) :
    front.Places (front.quoting ⟨"STRING".toList, by decide⟩ text) (StringData.bytes text) ∧
    ∃ words, front.Places (front.quoting ⟨"BSTRING".toList, by decide⟩ text) words ∧
      words.map UInt16.toNat =
        (List.range (((StringData.bytes text).length + 1) / 2)).map fun index =>
          StringData.byteAt (StringData.bytes text) (2 * index) +
            256 * StringData.byteAt (StringData.bytes text) (2 * index + 1) := by
  have hBytes : ∀ byte ∈ StringData.bytes text, byte < 256 :=
    StringData.plain_quoted h ▸ StringData.lt_of_mem_plain _
  refine ⟨front.places_quoting h ?_, StringData.pack (StringData.bytes text),
    front.places_quoting h ?_, StringData.map_toNat_pack hBytes⟩
  · rw [Line.parse_quoting front _ h, ← StringData.plain_quoted h]
    rfl
  · rw [Line.parse_quoting front _ h, ← StringData.plain_quoted h]
    rfl

def marked : Line.Front where
  lead := ⟨[' '], Text.all_isBlank_space⟩
  label := some (⟨"msg".toList, by decide⟩, ⟨[' '], Text.all_isBlank_space⟩)

/-- A macro that has the name of a directive. -/
def stringMacro : MacroTable := ⟨[("STRING".toList, ⟨"STRING".toList, [[]], ["halt".toList]⟩)]⟩

/-- The text has blanks at its ends, all kinds of marks and a character that takes more than a
byte. -/
theorem strings_survive_marks :
    '"' ∉ " #(z.,€:) ".toList ∧
      marked.quoting ⟨"STRING".toList, by decide⟩ " #(z.,€:) ".toList =
        " msg: STRING \" #(z.,€:) \"".toList ∧
      Macro.expand stringMacro " msg: STRING \" #(z.,€:) \"".toList =
        pure [" msg: STRING \" #(z.,€:) \"".toList] ∧
      (State.initial.step .exact .emit ⟨1, " msg: STRING \" #(z.,€:) \"".toList⟩).result =
        .ok ({ State.initial.behind marked with
          counter := 11
          image := State.initial.image.write 0
            [0x20, 0x23, 0x28, 0x7a, 0x2e, 0x2c, 0xac, 0x3a, 0x29, 0x20, 0] },
          [0x20, 0x23, 0x28, 0x7a, 0x2e, 0x2c, 0xac, 0x3a, 0x29, 0x20, 0]) ∧
      ∃ words, marked.Places " msg: BSTRING \" #(z.,€:) \"".toList words ∧
        words.map UInt16.toNat = [0x2320, 0x7a28, 0x2c2e, 0x3aac, 0x2029, 0] := by
  have hQuote : '"' ∉ " #(z.,€:) ".toList := by decide
  have hPlainText : marked.quoting ⟨"STRING".toList, by decide⟩ " #(z.,€:) ".toList =
      " msg: STRING \" #(z.,€:) \"".toList := by decide
  have hPackedText : marked.quoting ⟨"BSTRING".toList, by decide⟩ " #(z.,€:) ".toList =
      " msg: BSTRING \" #(z.,€:) \"".toList := by decide
  have hBytes : StringData.bytes " #(z.,€:) ".toList =
      [0x20, 0x23, 0x28, 0x7a, 0x2e, 0x2c, 0xac, 0x3a, 0x29, 0x20, 0] := by decide
  obtain ⟨hPlain, words, hPacked, hWords⟩ := strings_survive marked hQuote
  rw [hPlainText, hBytes] at hPlain
  rw [hPackedText] at hPacked
  exact ⟨hQuote, hPlainText, hPlain.expands stringMacro, hPlain.emits .exact .initial 1, words,
    hPacked, hWords.trans (by decide)⟩

end Strings

section Constants

namespace Line

/-- A constant that can be written in either way. A name that is a directive or a mnemonic would be
read as such where it comes first, and a comma or a hash sign would end the expression. -/
structure Equation where
  name : Text
  expression : Text
  isName : Expression.isName name = true
  notDirective : name ∉
    ["EQU".toList, "ORG".toList, "WORD".toList, "STRING".toList, "BSTRING".toList]
  notInstruction : Instruction.slot? name = none
  notBlank : expression.all Text.isBlank = false
  noComma : ',' ∉ expression
  noHash : '#' ∉ expression

namespace Equation

def word (equation : Equation) : Text.Word :=
  ⟨equation.name, Text.all_isWordChar_of_isName equation.isName, by
    intro hNil
    have hName := equation.isName
    rw [hNil] at hName
    cases hName⟩

/-- The form `EQU name, expression`. -/
def directiveFirst (equation : Equation) (front : Front) : Text :=
  front.line ⟨"EQU".toList, by decide⟩ ' ' (equation.name ++ ',' :: ' ' :: equation.expression)

/-- The form `name EQU expression`. -/
def nameFirst (equation : Equation) (front : Front) : Text :=
  front.line equation.word ' ' ('E' :: 'Q' :: 'U' :: ' ' :: equation.expression)

/-- What either form asks for. A label in front takes the place of the constant. -/
def statement (equation : Equation) (front : Front) : Statement :=
  if front.name.isSome then .blank else .constant equation.name (Text.trim equation.expression)

variable (equation : Equation) (front : Front)

theorem constantOr_eq {line : Line} (h : line.label = front.name) :
    line.constantOr equation.name (Text.trim equation.expression) =
      .ok (equation.statement front) := by
  rw [constantOr, h, if_pos equation.isName, statement]
  split <;> rfl

/-- The operands are the name and the expression. -/
theorem statement_directiveFirst :
    (parse (equation.directiveFirst front)).statement = .ok (equation.statement front) := by
  have hChars : ∀ {c : Char}, Text.isWordChar c = false → c ∉ equation.name :=
    Text.not_mem_of_all equation.word.property.1
  have hHash : '#' ∉ equation.name ++ ',' :: ' ' :: equation.expression := by
    simp [hChars (show Text.isWordChar '#' = false by decide), equation.noHash]
  have hName : Text.trim equation.name = equation.name :=
    Text.trim_word (Text.all_isWordChar_of_isName equation.isName)
  have hExpression : Text.trim (' ' :: equation.expression) = Text.trim equation.expression :=
    Text.trim_blanks_append Text.all_isBlank_space _
  have hOperands : Text.splitList (equation.name ++ ',' :: ' ' :: equation.expression) =
      [equation.name, Text.trim equation.expression] := by
    rw [Text.splitList_append_comma,
      Text.splitList_of_not_mem (hChars (show Text.isWordChar ',' = false by decide)),
      Text.splitList_of_not_mem (by simp [equation.noComma]), hName, hExpression]
    rfl
  rw [directiveFirst, parse_line front _ (by decide), stripComment_of_not_mem hHash, hOperands]
  exact equation.constantOr_eq front rfl

/-- The name is read as a mnemonic, and the operand text starts with the directive. -/
theorem statement_nameFirst :
    (parse (equation.nameFirst front)).statement = .ok (equation.statement front) := by
  have hHash : '#' ∉ 'E' :: 'Q' :: 'U' :: ' ' :: equation.expression := by
    simp [equation.noHash]
  have hTrim : Text.trim ('E' :: 'Q' :: 'U' :: ' ' :: equation.expression) =
      'E' :: 'Q' :: 'U' :: ' ' :: Text.trimEnd equation.expression := by
    rw [Text.trim, Text.trimStart_cons (by decide)]
    exact Text.trimEnd_append equation.notBlank ['E', 'Q', 'U', ' ']
  have hExpression : Text.trim (' ' :: Text.trimEnd equation.expression) =
      Text.trim equation.expression := by
    rw [← Text.trim_trimEnd equation.expression]
    exact Text.trim_blanks_append Text.all_isBlank_space _
  have hEquated : equated? ('E' :: 'Q' :: 'U' :: ' ' :: Text.trimEnd equation.expression) =
      some (Text.trim equation.expression) := by
    have hStarts : Text.startsBlank (' ' :: Text.trimEnd equation.expression) = true := rfl
    rw [equated?, if_pos hStarts, hExpression]
  have hNot := equation.notDirective
  simp only [List.mem_cons, List.not_mem_nil, or_false, not_or] at hNot
  rw [nameFirst, parse_line front _ (by decide), stripComment_of_not_mem hHash, hTrim,
    Line.statement]
  dsimp only [word]
  rw [if_neg hNot.1, if_neg hNot.2.1, if_neg hNot.2.2.1, if_neg hNot.2.2.2.1, if_neg hNot.2.2.2.2,
    instructionOrConstant, equation.notInstruction]
  dsimp only
  rw [hEquated]
  exact equation.constantOr_eq front rfl

variable (sizing : Sizing) (pass : Pass) (state : State) (number : Nat)

/-- With a label in front the expression has no say. -/
theorem result_step_of_label {mnemonic : Text.Word} {rest label : Text}
    (hStatement : (parse (front.line mnemonic ' ' rest)).statement = .ok (equation.statement front))
    (hLabel : front.name = some label) :
    (state.step sizing pass ⟨number, front.line mnemonic ' ' rest⟩).result =
      .ok ({ state with symbols := state.symbols.define label state.counter.toNat }, []) := by
  have hBlank : equation.statement front = .blank := by simp [statement, hLabel]
  have hBehind : state.behind front =
      { state with symbols := state.symbols.define label state.counter.toNat } := by
    simp [State.behind, hLabel]
  rw [state.result_step_line front (by decide) hStatement, hBlank, hBehind]
  rfl

/-- Without a label the value of the expression decides. -/
theorem result_step_of_unlabelled {mnemonic : Text.Word} {rest : Text}
    (hStatement : (parse (front.line mnemonic ' ' rest)).statement = .ok (equation.statement front))
    (hLabel : front.name = none) :
    (state.step sizing pass ⟨number, front.line mnemonic ' ' rest⟩).result =
      match state.evaluate (Text.trim equation.expression) with
      | .ok value =>
        .ok ({ state with symbols := state.symbols.define equation.name value.toNat }, [])
      | .error cause =>
        .error (.expression number (Text.trimEnd (front.line mnemonic ' ' rest)) cause) := by
  have hConstant : equation.statement front =
      .constant equation.name (Text.trim equation.expression) := by simp [statement, hLabel]
  have hBehind : state.behind front = state := by simp [State.behind, hLabel]
  rw [state.result_step_line front (by decide) hStatement, hConstant, hBehind, Statement.perform,
    Logged.result_bind, Logged.result_lift]
  cases state.evaluate (Text.trim equation.expression) <;> rfl

end Equation

/-- Both ways to write a constant have the same effect, in either pass. With a label in front they
bind the label and nothing else, whatever the expression is. Without one they bind the name to the
value of the expression, or they fail for the same cause at the same line, and then only the texts
of the lines differ. -/
theorem constant_forms_agree (equation : Equation) (front : Front) (sizing : Sizing) (pass : Pass)
    (state : State) (number : Nat) :
    (∀ label, front.name = some label →
      (state.step sizing pass ⟨number, equation.directiveFirst front⟩).result =
        .ok ({ state with symbols := state.symbols.define label state.counter.toNat }, []) ∧
      (state.step sizing pass ⟨number, equation.nameFirst front⟩).result =
        .ok ({ state with symbols := state.symbols.define label state.counter.toNat }, [])) ∧
    (front.name = none →
      (∃ value, state.evaluate (Text.trim equation.expression) = .ok value ∧
        (state.step sizing pass ⟨number, equation.directiveFirst front⟩).result =
          .ok ({ state with symbols := state.symbols.define equation.name value.toNat }, []) ∧
        (state.step sizing pass ⟨number, equation.nameFirst front⟩).result =
          .ok ({ state with symbols := state.symbols.define equation.name value.toNat }, [])) ∨
      ∃ cause, state.evaluate (Text.trim equation.expression) = .error cause ∧
        (state.step sizing pass ⟨number, equation.directiveFirst front⟩).result =
          .error (.expression number (Text.trimEnd (equation.directiveFirst front)) cause) ∧
        (state.step sizing pass ⟨number, equation.nameFirst front⟩).result =
          .error (.expression number (Text.trimEnd (equation.nameFirst front)) cause)) := by
  have hFirst := equation.statement_directiveFirst front
  have hSecond := equation.statement_nameFirst front
  refine ⟨fun label hLabel => ⟨?_, ?_⟩, fun hLabel => ?_⟩
  · exact equation.result_step_of_label front sizing pass state number hFirst hLabel
  · exact equation.result_step_of_label front sizing pass state number hSecond hLabel
  · have hDirective :=
      equation.result_step_of_unlabelled front sizing pass state number hFirst hLabel
    have hName := equation.result_step_of_unlabelled front sizing pass state number hSecond hLabel
    cases hValue : state.evaluate (Text.trim equation.expression) with
    | ok value =>
        rw [hValue] at hDirective hName
        exact .inl ⟨value, rfl, hDirective, hName⟩
    | error cause =>
        rw [hValue] at hDirective hName
        exact .inr ⟨cause, rfl, hDirective, hName⟩

/-- The expression has a full stop and a colon, blanks on both sides, and no value. -/
def stopped : Equation where
  name := "z".toList
  expression := " 2 * nz.x: ".toList
  isName := by decide
  notDirective := by decide
  notInstruction := by decide
  notBlank := by decide
  noComma := by decide
  noHash := by decide

def indented : Front := ⟨⟨[' '], Text.all_isBlank_space⟩, none⟩

theorem constant_forms_agree_stopped :
    stopped.directiveFirst indented = " EQU z,  2 * nz.x: ".toList ∧
      stopped.nameFirst indented = " z EQU  2 * nz.x: ".toList ∧
      (State.initial.step .exact .emit ⟨7, " EQU z,  2 * nz.x: ".toList⟩).result =
        .error (.expression 7 " EQU z,  2 * nz.x:".toList (.unbound "nz".toList)) ∧
      (State.initial.step .exact .emit ⟨7, " z EQU  2 * nz.x: ".toList⟩).result =
        .error (.expression 7 " z EQU  2 * nz.x:".toList (.unbound "nz".toList)) ∧
      (State.initial.step .exact .emit ⟨7, stopped.directiveFirst marked⟩).result =
        .ok ({ State.initial with
          symbols := State.initial.symbols.define "msg".toList 0 }, []) := by
  have hFirst : stopped.directiveFirst indented = " EQU z,  2 * nz.x: ".toList := by decide
  have hSecond : stopped.nameFirst indented = " z EQU  2 * nz.x: ".toList := by decide
  have hFails : State.initial.evaluate (Text.trim stopped.expression) =
      .error (.unbound "nz".toList) := eq_error_of_failure? (by decide +kernel)
  obtain ⟨-, hUnlabelled⟩ := constant_forms_agree stopped indented .exact .emit .initial 7
  obtain ⟨hLabelled, -⟩ := constant_forms_agree stopped marked .exact .emit .initial 7
  rw [hFirst, hSecond] at hUnlabelled
  rcases hUnlabelled rfl with ⟨value, hValue, -⟩ | ⟨cause, hCause, hDirective, hName⟩
  · rw [hFails] at hValue
    cases hValue
  · rw [hFails] at hCause
    cases hCause
    exact ⟨hFirst, hSecond, hDirective, hName, (hLabelled "msg".toList rfl).1⟩

end Line

end Constants

end TwoPass
