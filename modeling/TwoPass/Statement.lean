import TwoPass.Expression.Basic
import TwoPass.Line
import TwoPass.StringData

namespace TwoPass

/-- What a line asks for, apart from its label. -/
inductive Statement where
  /-- Nothing. -/
  | blank
  /-- Define a name as the value of an expression. -/
  | constant (name expression : Text)
  /-- Go on at the address that an expression gives. -/
  | origin (expression : Text)
  /-- Place the values of expressions. -/
  | data (expressions : List Text)
  /-- Place given words. -/
  | characters (words : List UInt16)
  /-- Place an instruction. -/
  | instruction (predicate : Predicate) (slot : Fin 32) (operands : Operands Text)
  deriving DecidableEq, Repr

inductive Malformed where
  /-- A constant is to be bound to a text that is no name. -/
  | notAName (text : Text)
  | unknownInstruction (mnemonic : Text)
  | operandCount (mnemonic : Text) (count : Nat)
  deriving DecidableEq, Repr

namespace Line

/-- The expression after the word `EQU` at the start of an operand text. -/
def equated? : Text → Option Text
  | 'E' :: 'Q' :: 'U' :: rest => if Text.startsBlank rest then some (Text.trim rest) else none
  | _ => none

/-- The definition of a constant. On a line with a label there is none, because the line
defines the label instead. -/
def constantOr (line : Line) (name expression : Text) : Except Malformed Statement :=
  if line.label.isSome then .ok .blank
  else if Expression.isName name then .ok (.constant name expression)
  else .error (.notAName name)

/-- What a line with a mnemonic that is no directive asks for: an instruction, or a constant in
the form `name EQU expression`. -/
def instructionOrConstant (line : Line) (mnemonic : Text) : Except Malformed Statement :=
  match Instruction.slot? mnemonic with
  | some slot =>
    match Operands.ofList? line.operands with
    | some operands => .ok (.instruction line.predicate slot operands)
    | none => .error (.operandCount mnemonic line.operands.length)
  | none =>
    match equated? line.operandText with
    | some expression => line.constantOr mnemonic expression
    | none => .error (.unknownInstruction mnemonic)

def statement (line : Line) : Except Malformed Statement :=
  match line.mnemonic with
  | none => .ok .blank
  | some mnemonic =>
    if mnemonic = "EQU".toList then
      line.constantOr (line.operands.headD []) (line.operands.getD 1 [])
    else if mnemonic = "ORG".toList then .ok (.origin line.operandText)
    else if mnemonic = "WORD".toList then .ok (.data line.operands)
    else if mnemonic = "STRING".toList then .ok (.characters (StringData.plain line.operandText))
    else if mnemonic = "BSTRING".toList then .ok (.characters (StringData.packed line.operandText))
    else line.instructionOrConstant mnemonic

end Line

end TwoPass
