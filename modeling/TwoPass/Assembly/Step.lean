import TwoPass.Expression.Reading
import TwoPass.Image
import TwoPass.Macro.Sweep
import TwoPass.Statement
import TwoPass.Symbol.Table

/-! One line of a pass. Both passes define labels and constants and follow origins. The sizing
pass then only moves the location counter on, while the emitting pass evaluates operands and
writes words. -/
namespace TwoPass

/-- How the sizing pass measures an instruction. -/
inductive Sizing where
  /-- One word less than it has operands. An instruction with one operand counts for nothing,
  although it takes a word. -/
  | compatible
  /-- The words that it takes. -/
  | exact
  deriving DecidableEq, Repr

/-- What a pass carries from line to line. The location counter has thirty-two bits and wraps
around; only its low sixteen bits reach the image and the symbols. -/
structure State where
  symbols : SymbolTable
  counter : UInt32
  image : Image

namespace SymbolTable

def defineEvents (name : Text) : List Event :=
  if isReserved name then [.registerKept name] else []

end SymbolTable

namespace Image

def writeEvents (image : Image) (address : Nat) (words : List UInt16) : List Event :=
  (image.overwritten address words).map .wordReplaced

end Image

namespace Instruction

/-- The mnemonic of a slot; some slots have none. -/
def mnemonic (slot : Fin 32) : Text :=
  ((slots.find? fun entry => entry.2 == slot).map (·.1)).getD []

def encodeEvents (slot : Fin 32) (operands : Operands UInt16) : List Event :=
  if isCut operands then
    [.fieldCut operands.destination (operands.source?.getD 0) (mnemonic slot)]
  else []

end Instruction

namespace State

def initial : State := ⟨.initial, 0, .empty⟩

def define {ε : Type} (state : State) (name : Text) (value : Nat) : Logged ε State := do
  Logged.tell (SymbolTable.defineEvents name)
  pure { state with symbols := state.symbols.define name value }

/-- Defines the label of a line, if it has one, as the location counter. -/
def defineLabel {ε : Type} (state : State) : Option Text → Logged ε State
  | none => pure state
  | some label => state.define label state.counter.toNat

/-- Writes words at the location counter and moves it past them. -/
def emit {ε : Type} (state : State) (words : List UInt16) : Logged ε (State × List UInt16) :=
  match state with
  | ⟨symbols, counter, image⟩ =>
    let (image, met) := image.writeThrough counter.toNat words
    do
      Logged.tell (met.map .wordReplaced)
      pure (⟨symbols, counter + .ofNat words.length, image⟩, words)

def evaluate (state : State) (expression : Text) : Except Expression.Error UInt16 :=
  Expression.evaluateWord state.symbols.get? expression

end State

namespace Statement

/-- How far the sizing pass moves the location counter. -/
def size (sizing : Sizing) : Statement → Nat
  | .blank | .constant .. | .origin .. => 0
  | .data expressions => expressions.length
  | .characters words => words.length
  | .instruction _ _ operands =>
    match sizing with
    | .compatible => operands.count - 1
    | .exact => operands.encodedLength

def words (state : State) : Statement → Logged Expression.Error (List UInt16)
  | .blank | .constant .. | .origin .. => pure []
  | .data expressions => .lift (expressions.mapM state.evaluate)
  | .characters words => pure words
  | .instruction predicate slot operands => do
    let values ← Logged.lift (operands.evaluate state.evaluate)
    Logged.tell (Instruction.encodeEvents slot values)
    pure (Instruction.encode predicate slot values)

/-- Carries out a statement, and gives the words placed, of which the sizing pass has none. -/
def perform (sizing : Sizing) (pass : Pass) (state : State) :
    Statement → Logged Expression.Error (State × List UInt16)
  | .blank => pure (state, [])
  | .constant name expression => do
    let value ← Logged.lift (state.evaluate expression)
    let state ← state.define name value.toNat
    pure (state, [])
  | .origin expression => do
    let value ← Logged.lift (state.evaluate expression)
    pure ({ state with counter := value.toUInt32 }, [])
  | statement =>
    match pass with
    | .sizing => pure ({ state with counter := state.counter + .ofNat (statement.size sizing) }, [])
    | .emit => do
      let words ← statement.words state
      state.emit words

end Statement

def StreamLine.expressionError (line : StreamLine) (cause : Expression.Error) : AssemblyError :=
  .expression line.number (Text.trimEnd line.text) cause

def StreamLine.malformedError (line : StreamLine) : Malformed → AssemblyError
  | .notAName text => line.expressionError (.notAName text)
  | .unknownInstruction mnemonic => .unknownInstruction line.number mnemonic
  | .operandCount mnemonic count => .operandCount line.number mnemonic count

/-- Processes one line. Its label is defined before anything else is looked at. -/
def State.step (sizing : Sizing) (pass : Pass) (state : State) (line : StreamLine) :
    Logged AssemblyError (State × List UInt16) := do
  let parsed := Line.parse line.text
  Logged.tell [.lineMet line.number state.counter.toNat line.text]
  let state ← state.defineLabel parsed.label
  match parsed.statement with
  | .error malformed => .fail (line.malformedError malformed)
  | .ok statement => (statement.perform sizing pass state).mapError line.expressionError

end TwoPass
