import TwoPass.Text.Basic

namespace TwoPass.Text

/-- The digit for a value below sixteen; larger values give the digit of their low four bits. -/
def hexDigit (n : Nat) : Char :=
  let d := n % 16
  if d < 10 then Char.ofNat (0x30 + d) else Char.ofNat (0x57 + d)

/-- Exactly four digits, for the low sixteen bits. -/
def hex4 (w : UInt16) : Text :=
  let n := w.toNat
  [hexDigit (n / 0x1000), hexDigit (n / 0x100), hexDigit (n / 0x10), hexDigit n]

/-- As many digits as the number needs, at least one. -/
def hex (n : Nat) : Text := Nat.toDigits 16 n

/-- Words as four digits each, with one space between neighbours. -/
def hexWords (words : List UInt16) : Text := [' '].intercalate (words.map hex4)

@[simp] theorem length_hex4 (w : UInt16) : (hex4 w).length = 4 := rfl

end TwoPass.Text
