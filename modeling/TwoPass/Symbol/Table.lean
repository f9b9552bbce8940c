import TwoPass.NameMap
import TwoPass.Text.Decimal
import TwoPass.Text.Hex

/-! The names of a program with their 16-bit values. Register names are in every table and
never change; all other names are free, and their last definition counts. -/
namespace TwoPass

/-- Names with 16-bit values, in the order of their first definition. -/
structure SymbolTable where
  bindings : NameMap UInt16
  deriving DecidableEq, Repr

/-- A name with its value, in the form in which tables are handed to other programs. -/
structure Symbol where
  name : Text
  value : UInt16
  deriving DecidableEq, Repr

namespace SymbolTable

/-- Other names of registers: the program counter and the status register. -/
def aliases : List (Text × UInt16) := [(['p', 'c'], 15), (['p', 's', 'r'], 0)]

/-- The index that follows the letter of a register name. It has no idle leading zero, unless
a plus sign stands in front. -/
def registerIndex? : Text → Option Nat
  | '+' :: digits => Text.decimal? digits
  | '0' :: _ :: _ => none
  | digits => Text.decimal? digits

/-- Whether a name belongs to a register, so that a program cannot define it. -/
def isReserved (name : Text) : Bool :=
  aliases.any (·.1 == name) ||
    match name with
    | 'r' :: index =>
      match registerIndex? index with
      | some i => i < 16
      | none => false
    | _ => false

/-- The registers `r0` to `r15` and their other names. -/
def initial : SymbolTable :=
  ⟨⟨(List.range 16).map (fun i => ('r' :: Nat.toDigits 10 i, UInt16.ofNat i)) ++ aliases⟩⟩

def get? (t : SymbolTable) (name : Text) : Option UInt16 := t.bindings.get? name

/-- Defines a name as the low sixteen bits of a number, and says whether it did. Register names
stay as they are. -/
def tryDefine (t : SymbolTable) (name : Text) (value : Nat) : SymbolTable × Bool :=
  if isReserved name then (t, false) else (⟨t.bindings.insert name (UInt16.ofNat value)⟩, true)

def define (t : SymbolTable) (name : Text) (value : Nat) : SymbolTable := (t.tryDefine name value).1

def userSymbols (t : SymbolTable) : List (Text × UInt16) :=
  t.bindings.entries.filter fun (name, _) => !isReserved name

/-- The names of the program for other programs. -/
def exported (t : SymbolTable) : List Symbol :=
  t.userSymbols.map fun (name, value) => { name, value }

/-- The names that the dump shows: those of the program, and the status register. -/
def listed (t : SymbolTable) : List (Text × UInt16) :=
  t.bindings.entries.filter fun (name, _) => name == ['p', 's', 'r'] || !isReserved name

end SymbolTable

end TwoPass
