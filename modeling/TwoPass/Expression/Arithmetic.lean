import TwoPass.Expression.Error

/-! The operators of operand expressions on 64-bit signed words. Sums and products are computed
exactly and then narrowed. Shifts, quotients and remainders work on the words themselves and
refuse in advance, or find out afterwards, what a word cannot hold. Division and remainder
round toward negative infinity. -/
namespace TwoPass.Expression

inductive UnaryOp where
  | negate
  /-- A plus sign, which changes nothing. -/
  | keep
  | complement
  deriving DecidableEq, Repr

inductive BinaryOp where
  | or
  | xor
  | and
  | shiftLeft
  | shiftRight
  | add
  | sub
  | mul
  | floorDiv
  | floorMod
  | power
  deriving DecidableEq, Repr

/-- The 64-bit word for an exact result, if there is one. -/
def narrow (n : Int) : Except Error Int64 :=
  if Int64.minValue.toInt ≤ n ∧ n ≤ Int64.maxValue.toInt then .ok (Int64.ofInt n)
  else .error .overflow

/-- Product with a power of two. A shift that loses bits does not come back to the value when it
is undone. A count of 63 or more overflows unless the value is zero. -/
def scaleUp (a count : Int64) : Except Error Int64 :=
  if count < 0 then .error .negativeShift
  else if a = 0 then .ok 0
  else if 63 ≤ count then .error .overflow
  else if (a <<< count) >>> count = a then .ok (a <<< count)
  else .error .overflow

/-- Quotient by a power of two, rounded down. Of a count beyond the word only the sign is left. -/
def scaleDown (a count : Int64) : Except Error Int64 :=
  if count < 0 then .error .negativeShift
  else if 64 ≤ count then .ok (a >>> 63)
  else .ok (a >>> count)

/-- Whether a quotient of words is not a word, which happens to the least word divided by minus
one only. -/
def quotientEscapes (a b : Int64) : Bool := a == Int64.minValue && b == -1

def signsDiffer (a b : Int64) : Bool := decide (a < 0) != decide (b < 0)

/-- Quotient rounded down. Division of words cuts the fraction off, which rounds a negative
quotient up. -/
def floorQuotient (a b : Int64) : Except Error Int64 :=
  if b = 0 then .error .zeroDivisor
  else if quotientEscapes a b then .error .overflow
  else if a % b ≠ 0 ∧ signsDiffer a b then .ok (a / b - 1)
  else .ok (a / b)

/-- Remainder of the quotient rounded down, so it is zero or has the sign of the
divisor. It is refused whenever its quotient is. -/
def floorRemainder (a b : Int64) : Except Error Int64 :=
  if b = 0 then .error .zeroDivisor
  else if quotientEscapes a b then .error .overflow
  else if a % b ≠ 0 ∧ signsDiffer (a % b) b then .ok (a % b + b)
  else .ok (a % b)

/-- The product `acc * base ^ exponent` by repeated squaring, for an exponent that fits
in the given number of bits. A square is taken only if a later factor needs it. -/
def raiseFrom : Nat → Int64 → Int64 → Nat → Except Error Int64
  | 0, acc, _, _ => .ok acc
  | bits + 1, acc, base, exponent => do
    let acc ← if exponent % 2 = 1 then narrow (acc.toInt * base.toInt) else .ok acc
    if exponent ≤ 1 then .ok acc
    else raiseFrom bits acc (← narrow (base.toInt * base.toInt)) (exponent / 2)

/-- Power with a non-negative exponent. Exponents of more than 32 bits overflow,
whatever the base. -/
def raise (base exponent : Int64) : Except Error Int64 :=
  if exponent < 0 then .error .negativeExponent
  else if Int.pow 2 32 ≤ exponent.toInt then .error .overflow
  else raiseFrom 32 1 base exponent.toInt.toNat

def UnaryOp.apply : UnaryOp → Int64 → Except Error Int64
  | .negate, a => narrow (-a.toInt)
  | .keep, a => .ok a
  | .complement, a => .ok (~~~a)

def BinaryOp.apply : BinaryOp → Int64 → Int64 → Except Error Int64
  | .or, a, b => .ok (a ||| b)
  | .xor, a, b => .ok (a ^^^ b)
  | .and, a, b => .ok (a &&& b)
  | .shiftLeft, a, b => scaleUp a b
  | .shiftRight, a, b => scaleDown a b
  | .add, a, b => narrow (a.toInt + b.toInt)
  | .sub, a, b => narrow (a.toInt - b.toInt)
  | .mul, a, b => narrow (a.toInt * b.toInt)
  | .floorDiv, a, b => floorQuotient a b
  | .floorMod, a, b => floorRemainder a b
  | .power, a, b => raise a b

end TwoPass.Expression
