import TwoPass.Text.Quoted

/-! What can be wrong with a JSON text, and where. A position is kept as the text that was still
unread, from which the line and the column are computed. -/
namespace TwoPass.Json

inductive Problem where
  | endInValue
  | endInString
  | endInObject
  | endInList
  | expectedValue
  | expectedKeyword
  | expectedColon
  | expectedListEnd
  | expectedObjectEnd
  | keyNotString
  | trailingComma
  | trailingText
  | badNumber
  | numberTooLarge
  | badEscape
  | controlCharacter
  | loneSurrogate
  | cutSurrogate
  /-- A value of another kind than the one that belongs there. -/
  | wrongKind (found expected : Text)
  /-- A value of the right kind that is out of range. -/
  | wrongValue (found expected : Text)
  | unknownVariant (name : Text) (expected : Text)
  | repeatedKey (name : Text)
  deriving DecidableEq, Repr

def Problem.mark (s : Text) : String := "`" ++ String.ofList s ++ "`"

def Problem.message : Problem → String
  | .endInValue => "EOF while parsing a value"
  | .endInString => "EOF while parsing a string"
  | .endInObject => "EOF while parsing an object"
  | .endInList => "EOF while parsing a list"
  | .expectedValue => "expected value"
  | .expectedKeyword => "expected ident"
  | .expectedColon => "expected `:`"
  | .expectedListEnd => "expected `,` or `]`"
  | .expectedObjectEnd => "expected `,` or `\x7d`"
  | .keyNotString => "key must be a string"
  | .trailingComma => "trailing comma"
  | .trailingText => "trailing characters"
  | .badNumber => "invalid number"
  | .numberTooLarge => "number out of range"
  | .badEscape => "invalid escape"
  | .controlCharacter => "control character (\\u0000-\\u001F) found while parsing a string"
  | .loneSurrogate => "lone leading surrogate in hex escape"
  | .cutSurrogate => "unexpected end of hex escape"
  | .wrongKind found expected =>
    "invalid type: " ++ String.ofList found ++ ", expected " ++ String.ofList expected
  | .wrongValue found expected =>
    "invalid value: " ++ String.ofList found ++ ", expected " ++ String.ofList expected
  | .unknownVariant name expected =>
    "unknown variant " ++ mark name ++ ", expected " ++ String.ofList expected
  | .repeatedKey name => "duplicate field " ++ mark name

/-- A problem and the text that was unread when it was found. Some bytes of that text may be to
blame; they count as read, as far as they are there. -/
structure Failure where
  problem : Problem
  rest : Text
  blamed : Nat
  deriving DecidableEq, Repr

namespace Failure

/-- How many bytes of the source count as read. -/
def bytesRead (source : Text) (failure : Failure) : Nat :=
  min (Text.utf8Size source - Text.utf8Size failure.rest + failure.blamed) (Text.utf8Size source)

/-- The line and column after a number of bytes: lines count from one, and the column is the
number of bytes since the last line feed. -/
def positionFrom (line column : Nat) : Nat → Text → Nat × Nat
  | _, [] => (line, column)
  | bytes, c :: rest =>
    if bytes = 0 then (line, column)
    else if c = '\n' then positionFrom (line + 1) 0 (bytes - 1) rest
    else if bytes ≤ c.utf8Size then (line, column + bytes)
    else positionFrom line (column + c.utf8Size) (bytes - c.utf8Size) rest

def message (source : Text) (failure : Failure) : String :=
  let (line, column) := positionFrom 1 0 (failure.bytesRead source) source
  failure.problem.message ++ s!" at line {line} column {column}"

end Failure

/-- A failure at the start of the unread text. -/
def stop {α : Type} (problem : Problem) (rest : Text) : Except Failure α :=
  .error ⟨problem, rest, 0⟩

/-- A failure for which the next byte is to blame, if there is one. -/
def stopAt {α : Type} (problem : Problem) (rest : Text) : Except Failure α :=
  .error ⟨problem, rest, 1⟩

end TwoPass.Json
