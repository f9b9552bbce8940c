import TwoPass.Instruction
import TwoPass.Text.Split
import TwoPass.Text.WordChar

/-! The parts of one line: `label: predicate.mnemonic operand, operand # comment`. Every part
may be missing. -/
namespace TwoPass

/-- The text in front of the first hash sign that is not between double quotes. -/
def stripCommentFrom (quoted : Bool) : Text → Text
  | [] => []
  | c :: rest =>
    if c = '"' then c :: stripCommentFrom (!quoted) rest
    else if c = '#' ∧ ¬quoted then []
    else c :: stripCommentFrom quoted rest

/-- The line without its comment. A hash sign between double quotes starts none. -/
def stripComment (line : Text) : Text := stripCommentFrom false line

/-- A leading word with a colon right after it, and the rest. Without such a label the text is
left as it is. -/
def splitLabel (s : Text) : Option Text × Text :=
  match Text.splitWord (Text.trimStart s) with
  | ([], _) => (none, s)
  | (word, ':' :: rest) => (some word, rest)
  | _ => (none, s)

/-- A predicate up to the first full stop, and the rest. Without one the text is left as it is
and the predicate is `always`. -/
def splitPredicate (s : Text) : Predicate × Text :=
  match Text.cutFirst '.' s with
  | none => (.always, s)
  | some (token, rest) =>
    match Predicate.ofText? token with
    | some predicate => (predicate, rest)
    | none => (.always, s)

/-- The parts of a line. Operand texts are trimmed, and there is always at least one. -/
structure Line where
  label : Option Text
  predicate : Predicate
  mnemonic : Option Text
  operandText : Text
  operands : List Text
  deriving DecidableEq, Repr

def Line.parse (line : Text) : Line :=
  let (label, rest) := splitLabel (stripComment line)
  let (predicate, rest) := splitPredicate (Text.trimStart rest)
  let (word, rest) := Text.splitWord rest
  let operandText := Text.trim rest
  { label, predicate
    mnemonic := if word.isEmpty then none else some word
    operandText
    operands := Text.splitList operandText }

end TwoPass
