import TwoPass.Text.Basic

/-! Numeric literals. A prefix `0x`, `0o` or `0b` in either case selects the radix, and
underscores are ignored after it. A decimal literal starts with a zero only if all its
digits are zero, and every value lies below 2^63. -/
namespace TwoPass.Expression

/-- The value of a digit or lower-case letter, counted on from ten. -/
def digitValue? (c : Char) : Option Nat :=
  if '0' ≤ c ∧ c ≤ '9' then some (c.toNat - '0'.toNat)
  else if 'a' ≤ c ∧ c ≤ 'z' then some (c.toNat - 'a'.toNat + 10)
  else none

def digitBelow? (radix : Nat) (c : Char) : Option Nat :=
  (digitValue? c).filter (· < radix)

/-- Positional value of digits, most significant first, on top of what stands before
them. -/
def positionalFrom? (radix : Nat) : Nat → Text → Option Nat
  | high, [] => some high
  | high, c :: rest =>
    (digitBelow? radix c).bind fun d => positionalFrom? radix (high * radix + d) rest

/-- The radix that a token in lower case selects, and the text of its digits. -/
def splitRadix : Text → Nat × Text
  | '0' :: 'x' :: digits => (16, digits)
  | '0' :: 'o' :: digits => (8, digits)
  | '0' :: 'b' :: digits => (2, digits)
  | digits => (10, digits)

/-- Whether decimal digits start with a zero that adds nothing, which is refused unless
all of them are zero. -/
def hasIdleZero (digits : Text) : Bool :=
  1 < digits.length && digits.head? == some '0' && digits.any (· != '0')

def literal? (token : Text) : Option Int64 :=
  let (radix, spelled) := splitRadix (token.map Char.toLower)
  let digits := spelled.filter (· != '_')
  if digits.isEmpty || (radix == 10 && hasIdleZero digits) then none
  else
    match positionalFrom? radix 0 digits with
    | some n => if n < Nat.pow 2 63 then some (Int64.ofNat n) else none
    | none => none

end TwoPass.Expression
