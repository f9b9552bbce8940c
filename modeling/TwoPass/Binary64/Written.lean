import TwoPass.Binary64.Shortest
import TwoPass.Text.Basic

/-! Magnitudes in writing. If the first digit stands for a power of ten from -5 to 15, all places
are written out, with at least one on each side of the point; otherwise the power is written after
the digits, with its sign. -/
namespace TwoPass.Binary64

def zeros (n : Nat) : Text := List.replicate n '0'

/-- Digits with all places, the first one for a power of ten. -/
def plain (digits : Text) (power : Int) : Text :=
  if power < 0 then '0' :: '.' :: zeros (power.natAbs - 1) ++ digits
  else
    let whole := power.toNat + 1
    if digits.length ≤ whole then digits ++ zeros (whole - digits.length) ++ ['.', '0']
    else digits.take whole ++ '.' :: digits.drop whole

/-- Digits with a point after the first one, and the power of ten of that one. -/
def scientific (digits : Text) (power : Int) : Text :=
  let point : Text := if digits.length ≤ 1 then [] else ['.']
  digits.take 1 ++ point ++ digits.drop 1 ++ ['e', if power < 0 then '-' else '+'] ++
    Nat.toDigits 10 power.natAbs

def written (x : Binary64) : Text :=
  if x.isZero then ['0', '.', '0']
  else
    let d := x.shortest
    let digits := Nat.toDigits 10 d.digits
    let power := d.power + digits.length - 1
    if -5 ≤ power ∧ power ≤ 15 then plain digits power else scientific digits power

end TwoPass.Binary64
