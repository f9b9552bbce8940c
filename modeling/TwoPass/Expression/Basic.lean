import TwoPass.Expression.Arithmetic

/-! Expression trees and their values. Operands are evaluated from left to right before
their operator is applied, so the leftmost failure is the one that shows. -/
namespace TwoPass

/-- An operand expression. Parentheses leave no trace in the tree. -/
inductive Expression where
  | literal (value : Int64)
  | name (name : Text)
  | unary (op : Expression.UnaryOp) (operand : Expression)
  | binary (op : Expression.BinaryOp) (left right : Expression)
  deriving DecidableEq, Repr

namespace Expression

/-- The value of a tree when names have the given 16-bit values. -/
def value (lookup : Text → Option UInt16) : Expression → Except Error Int64
  | .literal v => .ok v
  | .name n =>
    match lookup n with
    | some w => .ok (Int64.ofNat w.toNat)
    | none => .error (.unbound n)
  | .unary op operand => do
    op.apply (← operand.value lookup)
  | .binary op left right => do
    let a ← left.value lookup
    let b ← right.value lookup
    op.apply a b

/-- Letters of ASCII and the underscore, with which a name starts. -/
def isNameStart (c : Char) : Bool := c.isAlpha || c == '_'

/-- Letters and digits of ASCII and the underscore, of which names and literals consist. -/
def isNameChar (c : Char) : Bool := c.isAlphanum || c == '_'

/-- Whether a text is a name that expressions can mention. -/
def isName : Text → Bool
  | [] => false
  | c :: rest => isNameStart c && rest.all isNameChar

end Expression

end TwoPass
