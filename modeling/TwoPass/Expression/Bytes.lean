import TwoPass.Expression.Reading

/-! Evaluation over the bytes of a source. Nothing but an index tells where reading stands, and it
goes on by one or two bytes at a time. Values are computed while the source is read, so no tree is
built and the first failure ends everything. -/
namespace TwoPass.Expression.Bytes

/-- The byte at which reading stands, and those at which it has stood before, the last one first. -/
structure Cursor where
  pos : Nat
  passed : List Nat
  deriving DecidableEq, Repr

def Cursor.start : Cursor := ⟨0, []⟩

def Cursor.advance (c : Cursor) (width : Nat) : Cursor := ⟨c.pos + width, c.pos :: c.passed⟩

/-- A failure leaves the cursor where it is. -/
abbrev Scan := ExceptT Error (StateM Cursor)

/-- What a scan gives and where it ends, if it begins at a cursor. -/
def Scan.at {α : Type} (scan : Scan α) (c : Cursor) : Except Error α × Cursor := scan.run.run c

/-- The text that some bytes encode, and no text if they do not encode any. -/
def decode (bytes : List UInt8) : Text := ((String.fromUTF8? bytes.toByteArray).getD "").toList

/-- Goes on byte by byte while their characters fit. -/
def Cursor.advanceWhile (fits : Char → Bool) : List UInt8 → Cursor → Cursor
  | [], c => c
  | byte :: rest, c => if fits (.ofUInt8 byte) then advanceWhile fits rest (c.advance 1) else c

variable (bytes : List UInt8)

/-- The byte at an index, as the character that it is in ASCII. -/
def byteAt (index : Nat) : Option Char := (bytes[index]?).map .ofUInt8

/-- The failure at a cursor. It shows the character that the rest starts with; bytes that are none
show as the replacement character. -/
def unexpected (c : Cursor) : Error :=
  match bytes.drop c.pos with
  | [] => .endOfText
  | rest => .unexpected ((rest.toByteArray.utf8DecodeChar? 0).getD '\uFFFD') c.pos

def skipGaps : Scan Unit := modify fun c => c.advanceWhile isGap (bytes.drop c.pos)

/-- Takes a number of bytes off if the next one is the mark and the one behind it fits. -/
def eatBefore (fits : Option Char → Bool) (width : Nat) (mark : Char) : Scan Bool := do
  skipGaps bytes
  let c ← get
  if byteAt bytes c.pos = some mark ∧ fits (byteAt bytes (c.pos + 1)) then
    set (c.advance width)
    return true
  else return false

def eat (mark : Char) : Scan Bool := eatBefore bytes (fun _ => true) 1 mark

def eatSingle (mark : Char) : Scan Bool := eatBefore bytes (· != some mark) 1 mark

def eatDouble (mark : Char) : Scan Bool := eatBefore bytes (· == some mark) 2 mark

/-- The operator, if its mark can be taken off. -/
def orElse (eaten : Scan Bool) (op : BinaryOp) (otherwise : Scan (Option BinaryOp)) :
    Scan (Option BinaryOp) := do
  if ← eaten then return some op else otherwise

def orJoint : Scan (Option BinaryOp) := orElse (eatSingle bytes '|') .or (pure none)

def xorJoint : Scan (Option BinaryOp) := orElse (eatSingle bytes '^') .xor (pure none)

def andJoint : Scan (Option BinaryOp) := orElse (eatSingle bytes '&') .and (pure none)

def shiftJoint : Scan (Option BinaryOp) :=
  orElse (eatDouble bytes '<') .shiftLeft <| orElse (eatDouble bytes '>') .shiftRight (pure none)

def sumJoint : Scan (Option BinaryOp) :=
  orElse (eat bytes '+') .add <| orElse (eat bytes '-') .sub (pure none)

def productJoint : Scan (Option BinaryOp) :=
  orElse (eatSingle bytes '*') .mul <| orElse (eatDouble bytes '/') .floorDiv do
    if ← eatSingle bytes '/' then throw .loneSlash
    else orElse (eatSingle bytes '%') .floorMod (pure none)

/-- Applies operators of one level as long as there are any, one in each round. -/
def chainFrom (joint : Scan (Option BinaryOp)) (operand : Scan Int64) : Nat → Int64 → Scan Int64
  | 0, left => return left
  | rounds + 1, left => do
    match ← joint with
    | none => return left
    | some op =>
      let right ← operand
      let v ← op.apply left right
      chainFrom joint operand rounds v

def chain (rounds : Nat) (joint : Scan (Option BinaryOp)) (operand : Scan Int64) : Scan Int64 := do
  chainFrom joint operand rounds (← operand)

def levels (rounds : Nat) (operand : Scan Int64) : Scan Int64 :=
  chain rounds (orJoint bytes) <| chain rounds (xorJoint bytes) <|
    chain rounds (andJoint bytes) <| chain rounds (shiftJoint bytes) <|
      chain rounds (sumJoint bytes) <| chain rounds (productJoint bytes) operand

/-- The word at the cursor, which only bytes of names and literals belong to. -/
def takeWord : Scan Text := do
  let start ← get
  let stop := start.advanceWhile isNameChar (bytes.drop start.pos)
  set stop
  return decode ((bytes.drop start.pos).take (stop.pos - start.pos))

variable (lookup : Text → Option UInt16)

def primary (rounds : Nat) (operand : Scan Int64) : Scan Int64 := do
  if ← eat bytes '(' then
    let v ← levels bytes rounds operand
    if ← eat bytes ')' then return v
    else throw (unexpected bytes (← get))
  else
    let c ← get
    match byteAt bytes c.pos with
    | none => throw .endOfText
    | some head =>
      if head.isDigit then
        let word ← takeWord bytes
        match literal? word with
        | some v => return v
        | none => throw (.badLiteral word)
      else if isNameStart head then
        let word ← takeWord bytes
        match lookup word with
        | some w => return Int64.ofNat w.toNat
        | none => throw (.unbound word)
      else throw (unexpected bytes c)

def powered (rounds : Nat) (operand : Scan Int64) : Scan Int64 := do
  let base ← primary bytes lookup rounds operand
  if ← eatDouble bytes '*' then
    let exponent ← operand
    BinaryOp.power.apply base exponent
  else return base

def prefixed (op : UnaryOp) (operand : Scan Int64) : Scan Int64 := do
  let v ← operand
  op.apply v

def signedOperand (rounds : Nat) : Nat → Scan Int64
  | 0 => throw .tooDeep
  | depth + 1 => do
    if ← eat bytes '-' then prefixed .negate (signedOperand rounds depth)
    else if ← eat bytes '+' then prefixed .keep (signedOperand rounds depth)
    else if ← eat bytes '~' then prefixed .complement (signedOperand rounds depth)
    else powered bytes lookup rounds (signedOperand rounds depth)

def whole : Scan Int64 := do
  skipGaps bytes
  if (byteAt bytes (← get).pos).isNone then throw .empty
  else
    let v ← levels bytes bytes.length (signedOperand bytes lookup bytes.length depthLimit)
    skipGaps bytes
    let c ← get
    if (byteAt bytes c.pos).isNone then return v
    else throw (unexpected bytes c)

/-- The value of the expression that the bytes spell, and the cursor at which evaluation ends. -/
def evaluate : Except Error Int64 × Cursor := (whole bytes lookup).at .start

end TwoPass.Expression.Bytes
