import TwoPass.Text.Basic

/-! Instructions of the OPC5ls processor. An instruction word holds the predicate in its top
three bits, then a flag for an immediate word that follows, four bits each of opcode, source
and destination. -/
namespace TwoPass

/-- The condition under which an instruction takes effect. -/
inductive Predicate where
  | always
  | never
  | zero
  | notZero
  | carry
  | notCarry
  | negative
  | positive
  deriving DecidableEq, Repr

namespace Predicate

def code : Predicate → UInt16
  | .always => 0
  | .never => 1
  | .zero => 2
  | .notZero => 3
  | .carry => 4
  | .notCarry => 5
  | .negative => 6
  | .positive => 7

/-- The spellings of predicates. An empty one means always. -/
def spellings : List (Text × Predicate) :=
  [([], .always), (['1'], .always), (['0'], .never), (['z'], .zero), (['n', 'z'], .notZero),
    (['c'], .carry), (['n', 'c'], .notCarry), (['m', 'i'], .negative), (['p', 'l'], .positive)]

def ofText? (s : Text) : Option Predicate := spellings.lookup s

end Predicate

/-- One to three operands: the destination, then the source, then the immediate. -/
inductive Operands (α : Type) where
  | one (destination : α)
  | two (destination source : α)
  | three (destination source immediate : α)
  deriving DecidableEq, Repr

namespace Operands

variable {α β ε : Type}

def ofList? : List α → Option (Operands α)
  | [a] => some (.one a)
  | [a, b] => some (.two a b)
  | [a, b, c] => some (.three a b c)
  | _ => none

def count : Operands α → Nat
  | .one .. => 1
  | .two .. => 2
  | .three .. => 3

/-- Evaluates the operands from left to right, up to the first failure. -/
def evaluate (f : α → Except ε β) : Operands α → Except ε (Operands β)
  | .one a => do return .one (← f a)
  | .two a b => do return .two (← f a) (← f b)
  | .three a b c => do return .three (← f a) (← f b) (← f c)

def destination : Operands α → α
  | .one a | .two a _ | .three a _ _ => a

def source? : Operands α → Option α
  | .one _ => none
  | .two _ b | .three _ b _ => some b

def immediate? : Operands α → Option α
  | .one _ | .two _ _ => none
  | .three _ _ c => some c

/-- How many words an instruction with such operands takes. -/
def encodedLength : Operands α → Nat
  | .one .. | .two .. => 1
  | .three .. => 2

end Operands

namespace Instruction

/-- The mnemonics and their slots. The opcode is the slot modulo sixteen, so `halt` and `rti`
share the opcodes of `mov` and `psr`. -/
def slots : List (Text × Fin 32) :=
  [("mov".toList, 0), ("and".toList, 1), ("or".toList, 2), ("xor".toList, 3), ("add".toList, 4),
    ("adc".toList, 5), ("sto".toList, 6), ("ld".toList, 7), ("ror".toList, 8), ("not".toList, 9),
    ("sub".toList, 10), ("sbc".toList, 11), ("cmp".toList, 12), ("cmpc".toList, 13),
    ("bswp".toList, 14), ("psr".toList, 15), ("halt".toList, 16), ("rti".toList, 31)]

def slot? (mnemonic : Text) : Option (Fin 32) := slots.lookup mnemonic

/-- The low four bits, which is all that a register field holds. -/
def field (w : UInt16) : UInt16 := w &&& 0xf

/-- Whether a register operand does not fit in its field. -/
def isCut (operands : Operands UInt16) : Bool :=
  0xf < operands.destination || 0xf < operands.source?.getD 0

/-- The bit that announces an immediate word. -/
def immediateFlag (operands : Operands UInt16) : UInt16 :=
  if operands.immediate?.isSome then 0x1000 else 0

def word (predicate : Predicate) (slot : Fin 32) (operands : Operands UInt16) : UInt16 :=
  (predicate.code <<< 13)
    ||| immediateFlag operands
    ||| (field (UInt16.ofNat slot.val) <<< 8)
    ||| (field (operands.source?.getD 0) <<< 4)
    ||| field operands.destination

/-- The words of an instruction. The immediate follows as it is. -/
def encode (predicate : Predicate) (slot : Fin 32) (operands : Operands UInt16) : List UInt16 :=
  word predicate slot operands :: operands.immediate?.toList

/-- An instruction takes the words that its operands call for. -/
theorem length_encode (predicate : Predicate) (slot : Fin 32) (operands : Operands UInt16) :
    (encode predicate slot operands).length = operands.encodedLength := by
  cases operands <;> rfl

end Instruction

end TwoPass
