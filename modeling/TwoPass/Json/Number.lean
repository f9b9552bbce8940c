import TwoPass.Binary64
import TwoPass.Json.Failure
import TwoPass.Text.Decimal

namespace TwoPass.Json

/-- The parts of a number as it is spelled. -/
structure Numeral where
  minus : Bool
  whole : Text
  /-- The digits after the point, if there is a point. -/
  fraction : Option Text
  /-- Whether the exponent is negative, and its digits. -/
  exponent : Option (Bool × Text)
  deriving DecidableEq, Repr

/-- The digits at the start of a text, of which there must be at least one. The problem is the one
to report if the text ends instead. -/
def digits (atEnd : Problem) (s : Text) : Except Failure (Text × Text) :=
  match s.takeWhile Char.isDigit with
  | [] => if s.isEmpty then stop atEnd s else stopAt .badNumber s
  | found => .ok (found, s.dropWhile Char.isDigit)

/-- The whole part of a number. A leading zero stands alone. -/
def wholePart (atEnd : Problem) (s : Text) : Except Failure (Text × Text) :=
  match s with
  | '0' :: c :: rest => if c.isDigit then stopAt .badNumber (c :: rest) else .ok (['0'], c :: rest)
  | s => digits atEnd s

def fractionPart (atEnd : Problem) (s : Text) : Except Failure (Option Text × Text) :=
  match s with
  | '.' :: rest => (digits atEnd rest).map fun (found, rest) => (some found, rest)
  | s => .ok (none, s)

def exponentPart (atEnd : Problem) (s : Text) : Except Failure (Option (Bool × Text) × Text) :=
  let found (negative : Bool) (s : Text) :=
    (digits atEnd s).map fun (found, rest) => (some (negative, found), rest)
  match s with
  | c :: rest =>
    if c = 'e' ∨ c = 'E' then
      match rest with
      | '+' :: rest => found false rest
      | '-' :: rest => found true rest
      | rest => found false rest
    else .ok (none, s)
  | [] => .ok (none, s)

/-- The spelling of a number, the first character of which is a digit or a minus sign. -/
def numeral (atEnd : Problem) (s : Text) : Except Failure (Numeral × Text) := do
  let (minus, s) := match s with
    | '-' :: rest => (true, rest)
    | s => (false, s)
  let (whole, s) ← wholePart atEnd s
  let (fraction, s) ← fractionPart atEnd s
  let (exponent, s) ← exponentPart atEnd s
  return (⟨minus, whole, fraction, exponent⟩, s)

def skipNumber (s : Text) : Except Failure Text := (numeral .badNumber s).map (·.2)

inductive Number where
  | natural (n : UInt64)
  /-- The negative of a positive number of at most 2 ^ 63. -/
  | negative (n : Nat)
  | floating (minus : Bool) (magnitude : Binary64)
  deriving DecidableEq, Repr

def digitValue (c : Char) : Nat := c.toNat - '0'.toNat

/-- Adds digits to a number as long as it fits in 64 bits. Also gives how many were added. -/
def absorb (n : Nat) : Text → Nat × Nat
  | [] => (n, 0)
  | c :: rest =>
    let next := n * 10 + digitValue c
    if next < Nat.pow 2 64 then
      let (n, taken) := absorb next rest
      (n, taken + 1)
    else (n, 0)

/-- The leading digits of a numeral as a number of 64 bits, and the power of ten that it counts,
without the exponent. Digits that do not fit are taken for zeros; those of the fraction are tried
even if some in front of the point did not fit. -/
def Numeral.leading (numeral : Numeral) : Nat × Int :=
  let (n, taken) := absorb 0 numeral.whole
  let left := numeral.whole.length - taken
  let (n, places) := absorb n (numeral.fraction.getD [])
  (n, (left : Int) - places)

/-- Whether an exponent has more than 31 bits, and the digits of it behind the one that makes it
so. -/
def beyond31Bits? (n : Nat) : Text → Option Text
  | [] => none
  | c :: rest =>
    let next := n * 10 + digitValue c
    if Nat.pow 2 31 ≤ next then some rest else beyond31Bits? next rest

/-- The magnitude of a numeral with unread text behind it. A large exponent is not read to its end
if it makes the number too large. -/
def Numeral.magnitude (numeral : Numeral) (rest : Text) : Except Failure Binary64 :=
  let (n, power) := numeral.leading
  let (negative, digits) := numeral.exponent.getD (false, [])
  let scaled (power : Int) : Except Failure Binary64 :=
    match Binary64.ofDecimal? n power with
    | some x => .ok x
    | none => stop .numberTooLarge rest
  match beyond31Bits? 0 digits with
  | some unread =>
    if n = 0 ∨ negative then .ok .zero else stop .numberTooLarge (unread ++ rest)
  | none => scaled (if negative then power - Text.decimal digits else power + Text.decimal digits)

/-- The value of a numeral with unread text behind it. Zero with a minus sign is no whole
number. -/
def Numeral.value (numeral : Numeral) (rest : Text) : Except Failure Number :=
  let n := Text.decimal numeral.whole
  let isWhole := numeral.fraction.isNone && numeral.exponent.isNone
  if isWhole ∧ ¬numeral.minus ∧ n < Nat.pow 2 64 then .ok (.natural (UInt64.ofNat n))
  else if isWhole ∧ numeral.minus ∧ 0 < n ∧ n ≤ Nat.pow 2 63 then .ok (.negative n)
  else (numeral.magnitude rest).map (.floating numeral.minus)

/-- A number, the first character of which is a digit or a minus sign. -/
def number (s : Text) : Except Failure (Number × Text) := do
  let (numeral, rest) ← numeral .endInValue s
  return (← numeral.value rest, rest)

end TwoPass.Json
