/-! Magnitudes of binary floating point with 53 significant bits, and their arithmetic. Every
result is the exact one rounded to the nearest magnitude, a tie going to the even significand.
All computation is on natural numbers. -/
namespace TwoPass

/-- The magnitude `significand * 2 ^ exponent`. The significand has at most 53 bits; it has
exactly 53 unless the exponent is the least one, which is -1074. -/
structure Binary64 where
  significand : Nat
  exponent : Int
  deriving DecidableEq, Repr

namespace Binary64

def minExponent : Int := -1074

def maxExponent : Int := 971

def zero : Binary64 := ⟨0, minExponent⟩

def isZero (x : Binary64) : Bool := x.significand == 0

/-- The natural number nearest to a quotient, the even one of two. -/
def nearest (num den : Nat) : Nat :=
  let quotient := num / den
  let excess := 2 * (num % den)
  if excess < den then quotient
  else if den < excess then quotient + 1
  else quotient + quotient % 2

/-- The numerator and the denominator of `num / den * 2 ^ shift`. -/
def shifted (num den : Nat) (shift : Int) : Nat × Nat :=
  (num * Nat.pow 2 shift.toNat, den * Nat.pow 2 (-shift).toNat)

/-- The exponent of the magnitudes around a positive quotient: the quotient has 53 bits in front
of the point in units of that power of two, or it has fewer and the exponent is the least. -/
def exponentFor (num den : Nat) : Int :=
  let guess : Int := (num.log2 : Int) - den.log2 - 53
  let (n, d) := shifted num den (-guess)
  max minExponent (if Nat.pow 2 53 * d ≤ n then guess + 1 else guess)

def ofQuotient? (num den : Nat) : Option Binary64 :=
  if num = 0 then some zero
  else
    let exponent := exponentFor num den
    let (n, d) := shifted num den (-exponent)
    let significand := nearest n d
    let x : Binary64 :=
      if significand = Nat.pow 2 53 then ⟨Nat.pow 2 52, exponent + 1⟩
      else ⟨significand, exponent⟩
    if maxExponent < x.exponent then none else some x

def quotient (x : Binary64) : Nat × Nat := shifted x.significand 1 x.exponent

def mul? (x y : Binary64) : Option Binary64 :=
  let (a, b) := x.quotient
  let (c, d) := y.quotient
  ofQuotient? (a * c) (b * d)

def div? (x y : Binary64) : Option Binary64 :=
  let (a, b) := x.quotient
  let (c, d) := y.quotient
  ofQuotient? (a * d) (b * c)

def powerOfTen? (n : Nat) : Option Binary64 := ofQuotient? (Nat.pow 10 n) 1

/-- The greatest power of ten that is not too large. -/
def maxPower : Nat := 308

/-- Divides by a power of ten, in steps of the greatest power while the rest of it is larger. Each
step rounds. -/
def dropPower (x : Binary64) (n : Nat) : Option Binary64 :=
  if n ≤ maxPower then do x.div? (← powerOfTen? n)
  else if x.isZero then some x
  else do
    let y ← x.div? (← powerOfTen? maxPower)
    dropPower y (n - maxPower)
  termination_by n
  decreasing_by simp [maxPower] at *; omega

/-- The magnitude for `n * 10 ^ power`, or nothing if it is too large. The number and the power
are rounded on their own before they meet, so the result may differ in its last bits from the
magnitude nearest to the exact value. -/
def ofDecimal? (n : Nat) (power : Int) : Option Binary64 := do
  let x ← ofQuotient? n 1
  if power < 0 then x.dropPower power.natAbs
  else if x.isZero then some x
  else if power.toNat ≤ maxPower then x.mul? (← powerOfTen? power.toNat)
  else none

end Binary64

end TwoPass
