import TwoPass.Text.Basic

namespace TwoPass.Text

/-- The number that decimal digits spell. -/
def decimal (digits : Text) : Nat := Nat.ofDigitChars 10 digits 0

def decimal? (s : Text) : Option Nat :=
  if s.isEmpty then none
  else if s.all Char.isDigit then some (decimal s)
  else none

@[simp] theorem decimal_toDigits (n : Nat) : decimal (Nat.toDigits 10 n) = n :=
  Nat.ofDigitChars_ten_toDigits

end TwoPass.Text
