import TwoPass.Text.Quoted

namespace TwoPass.Expression

inductive Error where
  /-- The text holds nothing but blanks. -/
  | empty
  /-- A character stands where the grammar allows none such; its byte offset is counted in UTF-8. -/
  | unexpected (found : Char) (offset : Nat)
  /-- The text ends where the grammar needs more. -/
  | endOfText
  /-- A token that starts with a digit is no number. -/
  | badLiteral (token : Text)
  /-- A name has no value. -/
  | unbound (name : Text)
  | zeroDivisor
  | negativeShift
  | negativeExponent
  /-- A result has no 64-bit signed form, or lies beyond what an operator accepts. -/
  | overflow
  /-- A constant is to be bound to a text that is no name. -/
  | notAName (text : Text)
  /-- Too many operands are open inside each other. -/
  | tooDeep
  /-- A single slash, which is no operator of the language. -/
  | loneSlash
  deriving DecidableEq, Repr

/-- How many operands may be open inside each other. -/
def depthLimit : Nat := 200

def Error.message : Error → String
  | .empty => "empty expression"
  | .unexpected found offset =>
    "unexpected " ++ String.ofList (Text.quotedChar found) ++ s!" at offset {offset}"
  | .endOfText => "unexpected end of expression"
  | .badLiteral token => "bad numeric literal " ++ String.ofList (Text.quoted token)
  | .unbound name => "undefined symbol " ++ String.ofList name
  | .zeroDivisor => "division by zero"
  | .negativeShift => "negative shift count"
  | .negativeExponent => "negative exponent"
  | .overflow => "arithmetic overflow"
  | .notAName text => String.ofList (Text.quoted text) ++ " is not a symbol name"
  | .tooDeep => s!"expression nested deeper than {depthLimit} levels"
  | .loneSlash => "`/` is not integer division, use `//`"

end TwoPass.Expression
