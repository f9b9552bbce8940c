import TwoPass.Binary64

/-! The shortest decimal of a magnitude: of the decimals that round to it, one with the fewest
digits, and of those the one nearest to it, the even one of two. -/
namespace TwoPass.Binary64

structure Decimal where
  digits : Nat
  power : Int
  deriving DecidableEq, Repr

/-- Compares `a * 10 ^ power` with `b * 2 ^ exponent`. -/
def compareScaled (a : Nat) (power : Int) (b : Nat) (exponent : Int) : Ordering :=
  compare (a * Nat.pow 10 power.toNat * Nat.pow 2 (-exponent).toNat)
    (b * Nat.pow 2 exponent.toNat * Nat.pow 10 (-power).toNat)

/-- Whether a decimal rounds to a magnitude other than zero. It does between the points halfway to
the two neighbours, and at these points if the significand is even. The neighbour below a power
of two is half as far away, unless the exponent is the least. -/
def readsBack (x : Binary64) (d : Decimal) : Bool :=
  let narrow := x.significand == Nat.pow 2 52 && x.exponent != minExponent
  let low := 4 * x.significand - if narrow then 1 else 2
  let high := 4 * x.significand + 2
  let even := x.significand % 2 == 0
  let fromLow := compareScaled d.digits d.power low (x.exponent - 2)
  let fromHigh := compareScaled d.digits d.power high (x.exponent - 2)
  (fromLow == .gt || (even && fromLow == .eq)) && (fromHigh == .lt || (even && fromHigh == .eq))

def inUnits (x : Binary64) (power : Int) : Nat × Nat :=
  let (n, d) := x.quotient
  (n * Nat.pow 10 (-power).toNat, d * Nat.pow 10 power.toNat)

/-- The decimal in units of a power of ten that rounds to a magnitude, if there is one: the
nearest multiple of the unit below the value or the one above it. -/
def decimalInUnits? (x : Binary64) (power : Int) : Option Decimal :=
  let (n, d) := x.inUnits power
  let below : Decimal := ⟨n / d, power⟩
  let above : Decimal := ⟨n / d + 1, power⟩
  match x.readsBack below, x.readsBack above with
  | true, true => some ⟨nearest n d, power⟩
  | true, false => some below
  | false, true => some above
  | false, false => none

/-- The first decimal found in units of a power of ten and of the powers below it. -/
def firstDecimal? (x : Binary64) : Nat → Int → Option Decimal
  | 0, _ => none
  | rounds + 1, power => (x.decimalInUnits? power).or (firstDecimal? x rounds (power - 1))

def exactDecimal (x : Binary64) : Decimal :=
  if 0 ≤ x.exponent then ⟨x.significand * Nat.pow 2 x.exponent.toNat, 0⟩
  else ⟨x.significand * Nat.pow 5 x.exponent.natAbs, x.exponent⟩

/-- The exponent of a power of ten that is above the value by a few powers at most. The value is
below `2 ^ bits`, and the logarithm of two is between 0.301 and 0.302. -/
def topPower (x : Binary64) : Int :=
  let bits := x.exponent + x.significand.log2 + 1
  if 0 ≤ bits then bits * 302 / 1000 + 1 else bits * 301 / 1000 + 1

/-- Moves the zeros at the end of the digits to the power. A number has fewer digits than the
rounds given. -/
def stripZeros : Nat → Decimal → Decimal
  | 0, d => d
  | rounds + 1, d =>
    if d.digits != 0 && d.digits % 10 == 0 then stripZeros rounds ⟨d.digits / 10, d.power + 1⟩
    else d

/-- The shortest decimal of a magnitude other than zero. Seventeen digits suffice, and the search
starts at most a few powers of ten above the first digit. -/
def shortest (x : Binary64) : Decimal :=
  let found := (x.firstDecimal? 24 x.topPower).getD x.exactDecimal
  stripZeros (found.digits.log2 + 1) found

end TwoPass.Binary64
