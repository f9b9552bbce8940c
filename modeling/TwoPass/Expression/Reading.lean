import TwoPass.Expression.Basic
import TwoPass.Expression.Literal

/-! Reading expressions from text. The operators of one level associate to the left; from
the loosest level on these are `|`, then `^`, then `&`, then `<<` and `>>`, then `+` and
`-`, then `*`, `//` and `%`. Tighter are the unary `-`, `+` and `~`, then `**`, whose left
operand is a primary and whose right operand may have signs of its own. Each operand takes
one level off a depth budget, on which the reader recurses.

A reader that cannot go on still hands over the expressions it has completed, because their
failures come first. -/
namespace TwoPass.Expression

/-- What a reader cannot get past. -/
inductive Obstacle where
  /-- There is nothing to read. -/
  | empty
  /-- The text left over, which does not start as it should; it may be empty. -/
  | unexpected (rest : Text)
  | badLiteral (token : Text)
  | tooDeep
  | loneSlash
  deriving DecidableEq, Repr

/-- A reader that stopped: the expressions completed on the way, from left to right, and
the obstacle. -/
structure Stuck where
  completed : List Expression
  obstacle : Obstacle
  deriving DecidableEq, Repr

/-- A reader takes an expression off the front of a text. -/
abbrev Reader := Text → Except Stuck (Expression × Text)

/-- The same stop, met after one more expression had been completed. -/
def Stuck.after (left : Expression) (stuck : Stuck) : Stuck :=
  { stuck with completed := left :: stuck.completed }

/-- Space, tab, line feed, form feed and carriage return, which may stand between tokens. -/
def isGap (c : Char) : Bool :=
  c == ' ' || c == '\t' || c == '\n' || c == '\x0c' || c == '\r'

def skipGaps (s : Text) : Text := s.dropWhile isGap

/-- What follows a mark that stands alone, that is, not in front of another one. -/
def single? (mark : Char) (s : Text) : Option Text :=
  match skipGaps s with
  | [] => none
  | c :: rest => if c = mark ∧ rest.head? ≠ some mark then some rest else none

def double? (mark : Char) (s : Text) : Option Text :=
  match skipGaps s with
  | c :: d :: rest => if c = mark ∧ d = mark then some rest else none
  | _ => none

/-- What stands where an operator of some level may stand. -/
inductive Joint where
  | operator (op : BinaryOp) (rest : Text)
  /-- An operator that the language does not have. -/
  | refused (obstacle : Obstacle)
  /-- No operator of this level. -/
  | none

/-- An operator spelled by one mark, if nothing of the alternatives before it applies. -/
def Joint.orElse (found : Option Text) (op : BinaryOp) (otherwise : Joint) : Joint :=
  match found with
  | some rest => .operator op rest
  | Option.none => otherwise

def orJoint (s : Text) : Joint := .orElse (single? '|' s) .or .none

def xorJoint (s : Text) : Joint := .orElse (single? '^' s) .xor .none

def andJoint (s : Text) : Joint := .orElse (single? '&' s) .and .none

def shiftJoint (s : Text) : Joint :=
  .orElse (double? '<' s) .shiftLeft <| .orElse (double? '>' s) .shiftRight .none

/-- Signs count even if another sign follows, which then belongs to the operand. -/
def sumJoint (s : Text) : Joint :=
  match skipGaps s with
  | '+' :: rest => .operator .add rest
  | '-' :: rest => .operator .sub rest
  | _ => .none

def productJoint (s : Text) : Joint :=
  .orElse (single? '*' s) .mul <| .orElse (double? '/' s) .floorDiv <|
    match single? '/' s with
    | some _ => .refused .loneSlash
    | Option.none => .orElse (single? '%' s) .floorMod .none

/-- Takes operators of one level and their right operands as long as there are any, one in each
round. -/
def chainFrom (joint : Text → Joint) (operand : Reader) :
    Nat → Expression → Text → Except Stuck (Expression × Text)
  | 0, left, s => .ok (left, s)
  | rounds + 1, left, s =>
    match joint s with
    | .none => .ok (left, s)
    | .refused obstacle => .error ⟨[left], obstacle⟩
    | .operator op rest =>
      match operand rest with
      | .error stuck => .error (stuck.after left)
      | .ok (right, rest) => chainFrom joint operand rounds (.binary op left right) rest

def chain (rounds : Nat) (joint : Text → Joint) (operand : Reader) : Reader := fun s =>
  match operand s with
  | .error stuck => .error stuck
  | .ok (first, rest) => chainFrom joint operand rounds first rest

/-- All levels of binary operators above the given operands. -/
def levels (rounds : Nat) (operand : Reader) : Reader :=
  chain rounds orJoint <| chain rounds xorJoint <| chain rounds andJoint <|
    chain rounds shiftJoint <| chain rounds sumJoint <| chain rounds productJoint operand

/-- A literal, a name, or an expression in parentheses over the given operands. -/
def primary (rounds : Nat) (operand : Reader) : Reader := fun s =>
  match skipGaps s with
  | [] => .error ⟨[], .unexpected []⟩
  | c :: rest =>
    if c = '(' then
      match levels rounds operand rest with
      | .error stuck => .error stuck
      | .ok (inner, rest) =>
        match skipGaps rest with
        | ')' :: rest => .ok (inner, rest)
        | rest => .error ⟨[inner], .unexpected rest⟩
    else
      let word := (c :: rest).takeWhile isNameChar
      let beyond := (c :: rest).dropWhile isNameChar
      if c.isDigit then
        match literal? word with
        | some v => .ok (.literal v, beyond)
        | none => .error ⟨[], .badLiteral word⟩
      else if isNameStart c then .ok (.name word, beyond)
      else .error ⟨[], .unexpected (c :: rest)⟩

/-- A primary, raised to a power if `**` follows. -/
def powered (rounds : Nat) (operand : Reader) : Reader := fun s =>
  match primary rounds operand s with
  | .error stuck => .error stuck
  | .ok (base, rest) =>
    match double? '*' rest with
    | none => .ok (base, rest)
    | some rest =>
      match operand rest with
      | .error stuck => .error (stuck.after base)
      | .ok (exponent, rest) => .ok (.binary .power base exponent, rest)

def prefixed (op : UnaryOp) (operand : Reader) : Reader := fun s =>
  match operand s with
  | .error stuck => .error stuck
  | .ok (e, rest) => .ok (.unary op e, rest)

/-- An operand with any number of signs, and with at most the given number of operands open
inside each other. -/
def signedOperand (rounds : Nat) : Nat → Reader
  | 0 => fun _ => .error ⟨[], .tooDeep⟩
  | depth + 1 => fun s =>
    match skipGaps s with
    | '-' :: rest => prefixed .negate (signedOperand rounds depth) rest
    | '+' :: rest => prefixed .keep (signedOperand rounds depth) rest
    | '~' :: rest => prefixed .complement (signedOperand rounds depth) rest
    | s => powered rounds (signedOperand rounds depth) s

/-- Each round uses up an operator, so there are no more of them than bytes in the source. -/
def enoughRounds (source : Text) : Nat := Text.utf8Size source

def parse (source : Text) : Except Stuck Expression :=
  match skipGaps source with
  | [] => .error ⟨[], .empty⟩
  | s =>
    match levels (enoughRounds source) (signedOperand (enoughRounds source) depthLimit) s with
    | .error stuck => .error stuck
    | .ok (e, rest) =>
      match skipGaps rest with
      | [] => .ok e
      | rest => .error ⟨[e], .unexpected rest⟩

/-- The error for an obstacle in a source. What is left over tells the offset. -/
def Obstacle.error (source : Text) : Obstacle → Error
  | .empty => .empty
  | .unexpected [] => .endOfText
  | .unexpected (c :: rest) => .unexpected c (Text.utf8Size source - Text.utf8Size (c :: rest))
  | .badLiteral token => .badLiteral token
  | .tooDeep => .tooDeep
  | .loneSlash => .loneSlash

/-- The value of the expression that a text spells. If the text cannot be read to its end,
a failure among the expressions completed before the obstacle goes first. -/
def evaluate (lookup : Text → Option UInt16) (source : Text) : Except Error Int64 :=
  match parse source with
  | .ok e => e.value lookup
  | .error stuck => do
    let _ ← stuck.completed.mapM (value lookup)
    .error (stuck.obstacle.error source)

def evaluateWord (lookup : Text → Option UInt16) (source : Text) : Except Error UInt16 := do
  let v ← evaluate lookup source
  .ok v.toUInt64.toUInt16

end TwoPass.Expression
