import Mathlib.Algebra.Group.Nat.Defs
import TwoPass.Assembly.Step
import TwoPass.Proofs.Outcome
import TwoPass.Proofs.Symbol.Order

/-! What one line of a pass can do, as rules. Both passes share the rules for names and origins
and differ only in how they get past the words of a line. All statements are about lines that
are processed successfully; which error a bad line gives is not covered. -/
namespace TwoPass

/-- A constant gives way to a label. Without one it is accepted for its name alone, whatever its
expression is. -/
theorem Line.constantOr_eq_ok_iff {line : Line} {name expression : Text} {statement : Statement} :
    line.constantOr name expression = .ok statement ↔
      (line.label.isSome = true ∧ statement = .blank) ∨
      (line.label = none ∧ Expression.isName name = true ∧
        statement = .constant name expression) := by
  cases hLabel : line.label with
  | some label => simp [constantOr, hLabel, @eq_comm _ statement]
  | none =>
      cases hName : Expression.isName name with
      | true => simp [constantOr, hLabel, hName, @eq_comm _ statement]
      | false => simp [constantOr, hLabel, hName]

namespace StreamLine

/-- The label of a line, which may be a register name. -/
def label (line : StreamLine) : Option Text := (Line.parse line.text).label

/-- What a line asks for, apart from its label. -/
def statement (line : StreamLine) : Except Malformed Statement := (Line.parse line.text).statement

/-- The constant of a line, with the text of its value. -/
def constant? (line : StreamLine) : Option (Text × Text) :=
  match line.statement with
  | .ok (.constant name expression) => some (name, expression)
  | _ => none

/-- The name that a line binds: its label or else the name of its constant, unless this is the
name of a register. -/
def binding? (line : StreamLine) : Option Text :=
  (line.label <|> line.constant?.map Prod.fst).filter fun name => !SymbolTable.isReserved name

/-- A line with a label defines no constant. -/
theorem statement_ne_constant {line : StreamLine} {label name expression : Text}
    (h : line.label = some label) : line.statement ≠ .ok (.constant name expression) := by
  have hOr : ∀ n e, (Line.parse line.text).constantOr n e = .ok .blank := by
    intro n e
    have hSome : (Line.parse line.text).label.isSome = true := by
      rw [show (Line.parse line.text).label = some label from h]
      rfl
    exact Line.constantOr_eq_ok_iff.mpr (.inl ⟨hSome, rfl⟩)
  unfold statement Line.statement Line.instructionOrConstant
  simp only [hOr]
  repeat' split
  all_goals simp

end StreamLine

/-- The names that lines bind, in the order of the lines. A name that several lines bind is
there as often. -/
def boundNames (lines : List StreamLine) : List Text := lines.filterMap StreamLine.binding?

/-- Whether a statement places words. -/
def Statement.places : Statement → Bool
  | .blank | .constant .. | .origin .. => false
  | .data .. | .characters .. | .instruction .. => true

theorem StreamLine.constant?_eq_none_of_places {line : StreamLine} {statement : Statement}
    (hStatement : line.statement = .ok statement) (hPlaces : statement.places = true) :
    line.constant? = none := by
  cases statement with
  | constant name expression => cases hPlaces
  | _ => simp [constant?, hStatement]

/-- The state in which the statement of a line is carried out: the label of the line is the
location counter already. -/
def State.labelled (state : State) (line : StreamLine) : State :=
  match line.label with
  | none => state
  | some label => { state with symbols := state.symbols.define label state.counter.toNat }

/-- Carrying out a statement successfully, one rule for each way to do so. -/
inductive Performs (sizing : Sizing) : Pass → State → Statement → State → List UInt16 → Prop where
  | blank (pass : Pass) (state : State) : Performs sizing pass state .blank state []
  | constant (pass : Pass) {state : State} {name expression : Text} {value : UInt16}
      (hValue : state.evaluate expression = .ok value) :
      Performs sizing pass state (.constant name expression)
        { state with symbols := state.symbols.define name value.toNat } []
  | origin (pass : Pass) {state : State} {expression : Text} {value : UInt16}
      (hValue : state.evaluate expression = .ok value) :
      Performs sizing pass state (.origin expression) { state with counter := value.toUInt32 } []
  /-- The sizing pass only measures words. -/
  | measure {state : State} {statement : Statement} (hPlaces : statement.places = true) :
      Performs sizing .sizing state statement
        { state with counter := state.counter + .ofNat (statement.size sizing) } []
  /-- The emitting pass writes them. -/
  | write {state : State} {statement : Statement} {words : List UInt16}
      (hPlaces : statement.places = true) (hWords : (statement.words state).result = .ok words) :
      Performs sizing .emit state statement
        { state with
          counter := state.counter + .ofNat words.length
          image := state.image.write state.counter.toNat words } words

namespace Performs

variable {sizing : Sizing} {pass : Pass} {state next : State} {name expression : Text}
  {statement : Statement} {words : List UInt16}

theorem of_blank (h : Performs sizing pass state .blank next words) :
    next = state ∧ words = [] := by
  cases h with
  | blank => exact ⟨rfl, rfl⟩
  | measure hPlaces | write hPlaces => cases hPlaces

/-- A constant is bound in both passes, to its value in each. -/
theorem of_constant (h : Performs sizing pass state (.constant name expression) next words) :
    ∃ value, state.evaluate expression = .ok value ∧
      next = { state with symbols := state.symbols.define name value.toNat } ∧ words = [] := by
  cases h with
  | constant _ hValue => exact ⟨_, hValue, rfl, rfl⟩
  | measure hPlaces | write hPlaces => cases hPlaces

/-- An origin sets the counter and places nothing. -/
theorem of_origin (h : Performs sizing pass state (.origin expression) next words) :
    ∃ value, state.evaluate expression = .ok value ∧
      next = { state with counter := value.toUInt32 } ∧ words = [] := by
  cases h with
  | origin _ hValue => exact ⟨_, hValue, rfl, rfl⟩
  | measure hPlaces | write hPlaces => cases hPlaces

/-- What is placed goes to the image, and the counter goes on by as many words. -/
theorem of_emit (h : Performs sizing .emit state statement next words)
    (hPlaces : statement.places = true) :
    (statement.words state).result = .ok words ∧
      next = { state with
        counter := state.counter + .ofNat words.length
        image := state.image.write state.counter.toNat words } := by
  cases h with
  | blank | constant | origin => cases hPlaces
  | write _ hWords => exact ⟨hWords, rfl⟩

end Performs

namespace State

/-- The counter moved on by a number of words wraps around as a whole, however large the number. -/
theorem toNat_add_ofNat (counter : UInt32) (n : Nat) :
    (counter + .ofNat n).toNat = (counter.toNat + n) % 2 ^ 32 := by
  rw [UInt32.toNat_add, UInt32.toNat_ofNat', Nat.add_mod_mod]

@[simp] theorem result_define {ε : Type} (state : State) (name : Text) (value : Nat) :
    (state.define name value : Logged ε State).result =
      .ok { state with symbols := state.symbols.define name value } := rfl

@[simp] theorem result_defineLabel {ε : Type} (state : State) (line : StreamLine) :
    (state.defineLabel line.label : Logged ε State).result = .ok (state.labelled line) := by
  unfold labelled
  cases line.label <;> rfl

@[simp] theorem result_emit {ε : Type} (state : State) (words : List UInt16) :
    (state.emit words : Logged ε (State × List UInt16)).result =
      .ok ({ state with
        counter := state.counter + .ofNat words.length
        image := state.image.write state.counter.toNat words }, words) := rfl

@[simp] theorem labelled_counter (state : State) (line : StreamLine) :
    (state.labelled line).counter = state.counter := by
  unfold labelled
  cases line.label <;> rfl

@[simp] theorem labelled_image (state : State) (line : StreamLine) :
    (state.labelled line).image = state.image := by
  unfold labelled
  cases line.label <;> rfl

/-- The label of a line is the counter, and every other name is what it was. -/
theorem get?_labelled (state : State) (line : StreamLine) (name : Text) :
    (state.labelled line).symbols.get? name =
      if line.label = some name ∧ SymbolTable.isReserved name = false then
        some (UInt16.ofNat state.counter.toNat)
      else state.symbols.get? name := by
  cases hLabel : line.label with
  | none => simp [labelled, hLabel]
  | some label =>
      simp only [labelled, hLabel, SymbolTable.get?_define, Option.some.injEq]
      by_cases hName : label = name
      · subst hName
        rfl
      · simp [hName]

end State

namespace Statement

variable {sizing : Sizing} {pass : Pass} {state next : State} {statement : Statement}
  {words : List UInt16}

/-- Past names and origins, the sizing pass moves the counter on by the measured size. -/
theorem perform_sizing_of_places (h : statement.places = true) :
    (statement.perform sizing .sizing state).result =
      .ok ({ state with counter := state.counter + .ofNat (statement.size sizing) }, []) := by
  cases statement <;> first | rfl | cases h

/-- The emitting pass computes the words first. -/
theorem perform_emit_of_places (h : statement.places = true) :
    (statement.perform sizing .emit state).result =
      (statement.words state).result >>= fun words =>
        (state.emit words : Logged Expression.Error (State × List UInt16)).result := by
  cases statement <;> first | exact Logged.result_bind _ _ | cases h

/-- The rules describe exactly the successful results. -/
theorem perform_eq_ok_iff :
    (statement.perform sizing pass state).result = .ok (next, words) ↔
      Performs sizing pass state statement next words := by
  constructor
  · intro h
    cases hPlaces : statement.places with
    | true =>
        cases pass with
        | sizing =>
            rw [perform_sizing_of_places hPlaces] at h
            cases h
            exact .measure hPlaces
        | emit =>
            rw [perform_emit_of_places hPlaces] at h
            obtain ⟨placed, hWords, h⟩ := bind_eq_ok_iff.mp h
            cases h
            exact .write hPlaces hWords
    | false =>
        cases statement with
        | blank =>
            cases h
            exact .blank pass state
        | constant name expression =>
            rw [perform, Logged.result_bind, Logged.result_lift] at h
            obtain ⟨value, hValue, h⟩ := bind_eq_ok_iff.mp h
            cases h
            exact .constant pass hValue
        | origin expression =>
            rw [perform, Logged.result_bind, Logged.result_lift] at h
            obtain ⟨value, hValue, h⟩ := bind_eq_ok_iff.mp h
            cases h
            exact .origin pass hValue
        | data expressions => cases hPlaces
        | characters placed => cases hPlaces
        | instruction predicate slot operands => cases hPlaces
  · intro h
    cases h with
    | blank => rfl
    | constant _ hValue =>
        rw [perform, Logged.result_bind, Logged.result_lift, hValue]
        rfl
    | origin _ hValue =>
        rw [perform, Logged.result_bind, Logged.result_lift, hValue]
        rfl
    | measure hPlaces => exact perform_sizing_of_places hPlaces
    | write hPlaces hWords =>
        rw [perform_emit_of_places hPlaces, hWords]
        rfl

/-- The values of operands do not change the length of an instruction. -/
theorem encodedLength_of_evaluate_eq_ok {ε α β : Type} {f : α → Except ε β} {operands : Operands α}
    {values : Operands β} (h : operands.evaluate f = .ok values) :
    values.encodedLength = operands.encodedLength := by
  cases operands with
  | one a =>
      obtain ⟨_, -, h⟩ := bind_eq_ok_iff.mp h
      cases h
      rfl
  | two a b =>
      obtain ⟨_, -, h⟩ := bind_eq_ok_iff.mp h
      obtain ⟨_, -, h⟩ := bind_eq_ok_iff.mp h
      cases h
      rfl
  | three a b c =>
      obtain ⟨_, -, h⟩ := bind_eq_ok_iff.mp h
      obtain ⟨_, -, h⟩ := bind_eq_ok_iff.mp h
      obtain ⟨_, -, h⟩ := bind_eq_ok_iff.mp h
      cases h
      rfl

theorem words_instruction_eq_ok_iff {predicate : Predicate} {slot : Fin 32}
    {operands : Operands Text} :
    ((instruction predicate slot operands).words state).result = .ok words ↔
      ∃ values, operands.evaluate state.evaluate = .ok values ∧
        words = Instruction.encode predicate slot values := by
  rw [Statement.words, Logged.result_bind, Logged.result_lift, bind_eq_ok_iff]
  simp only [Logged.result_bind, Logged.result_tell, Logged.result_pure]
  constructor
  · rintro ⟨values, hValues, h⟩
    cases h
    exact ⟨values, hValues, rfl⟩
  · rintro ⟨values, hValues, rfl⟩
    exact ⟨values, hValues, rfl⟩

/-- The exact measure is the number of words that come out, whatever their values are. -/
theorem length_words (h : (statement.words state).result = .ok words) :
    words.length = statement.size .exact := by
  cases statement with
  | blank | constant | origin =>
      cases h
      rfl
  | data expressions => exact length_of_mapM_eq_ok h
  | characters placed =>
      cases h
      rfl
  | instruction predicate slot operands =>
      obtain ⟨values, hValues, rfl⟩ := words_instruction_eq_ok_iff.mp h
      rw [Instruction.length_encode, encodedLength_of_evaluate_eq_ok hValues]
      rfl

end Statement

namespace State

variable {sizing : Sizing} {pass : Pass} {state next : State} {line : StreamLine}
  {words : List UInt16}

/-- A line is processed by defining its label and then carrying out its statement. -/
theorem step_eq_ok_iff :
    (state.step sizing pass line).result = .ok (next, words) ↔
      ∃ statement, line.statement = .ok statement ∧
        Performs sizing pass (state.labelled line) statement next words := by
  have hLabel : (state.defineLabel (Line.parse line.text).label : Logged AssemblyError State).result =
      .ok (state.labelled line) := result_defineLabel state line
  rw [step, Logged.result_bind, Logged.result_tell, bind_eq_ok_iff]
  simp only [Logged.result_bind, bind_eq_ok_iff, hLabel, StreamLine.statement]
  constructor
  · rintro ⟨_, _, labelled, hEq, h⟩
    cases hEq
    cases hStatement : (Line.parse line.text).statement with
    | error malformed =>
        rw [hStatement] at h
        cases h
    | ok statement =>
        rw [hStatement] at h
        exact ⟨statement, rfl, Statement.perform_eq_ok_iff.mp (mapError_eq_ok_iff.mp h)⟩
  · rintro ⟨statement, hStatement, h⟩
    refine ⟨(), trivial, state.labelled line, rfl, ?_⟩
    rw [hStatement]
    exact mapError_eq_ok_iff.mpr (Statement.perform_eq_ok_iff.mpr h)

/-- A line with a label defines the label and nothing else. -/
theorem symbols_of_labelled_step {label : Text}
    (h : (state.step sizing pass line).result = .ok (next, words))
    (hLabel : line.label = some label) :
    next.symbols = state.symbols.define label state.counter.toNat := by
  obtain ⟨statement, hStatement, hPerforms⟩ := step_eq_ok_iff.mp h
  have hLabelled : (state.labelled line).symbols =
      state.symbols.define label state.counter.toNat := by
    simp [labelled, hLabel]
  rw [← hLabelled]
  cases hPerforms with
  | constant => exact absurd hStatement (line.statement_ne_constant hLabel)
  | blank | origin | measure | write => rfl

/-- What a processed line does to the symbols. It binds one name or none, a label to the counter
in front of the line and a constant to the value of its expression at that point. -/
theorem symbols_of_step (h : (state.step sizing pass line).result = .ok (next, words)) :
    (line.binding? = none ∧ next.symbols = state.symbols) ∨
    (∃ label, line.binding? = some label ∧ line.label = some label ∧
      next.symbols = state.symbols.define label state.counter.toNat) ∨
    (∃ name expression value, line.binding? = some name ∧ line.label = none ∧
      line.statement = .ok (.constant name expression) ∧ state.evaluate expression = .ok value ∧
      next.symbols = state.symbols.define name value.toNat) := by
  cases hLabel : line.label with
  | some label =>
      have hSymbols := symbols_of_labelled_step h hLabel
      cases hReserved : SymbolTable.isReserved label with
      | true =>
          refine Or.inl ⟨by simp [StreamLine.binding?, hLabel, hReserved], ?_⟩
          rw [hSymbols, SymbolTable.define_eq_self (by simp [hReserved])]
      | false =>
          exact Or.inr (Or.inl
            ⟨label, by simp [StreamLine.binding?, hLabel, hReserved], rfl, hSymbols⟩)
  | none =>
      obtain ⟨statement, hStatement, hPerforms⟩ := step_eq_ok_iff.mp h
      have hLabelled : state.labelled line = state := by simp [labelled, hLabel]
      rw [hLabelled] at hPerforms
      cases hPerforms with
      | @constant _ _ name expression value hValue =>
          have hBinding : line.binding? =
              (some name).filter fun name => !SymbolTable.isReserved name := by
            simp [StreamLine.binding?, hLabel, StreamLine.constant?, hStatement]
          cases hReserved : SymbolTable.isReserved name with
          | true =>
              refine Or.inl ⟨by simp [hBinding, hReserved], ?_⟩
              exact SymbolTable.define_eq_self (by simp [hReserved])
          | false =>
              exact Or.inr (Or.inr ⟨name, expression, value, by simp [hBinding, hReserved], rfl,
                hStatement, hValue, rfl⟩)
      | blank | origin =>
          exact Or.inl
            ⟨by simp [StreamLine.binding?, hLabel, StreamLine.constant?, hStatement], rfl⟩
      | measure hPlaces | write hPlaces =>
          have hConstant := line.constant?_eq_none_of_places hStatement hPlaces
          exact Or.inl ⟨by simp [StreamLine.binding?, hLabel, hConstant], rfl⟩

end State

end TwoPass
