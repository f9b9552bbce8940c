import TwoPass.Text.Basic

/-! Blanks and trimming. A blank is a character with the Unicode property
White_Space, so a zero-width space or a byte order mark is no blank. -/
namespace TwoPass.Text

/-- The characters with the Unicode property White_Space. -/
def isBlank (c : Char) : Bool :=
  let n := c.toNat
  (0x09 ≤ n && n ≤ 0x0d) || n == 0x20 || n == 0x85 || n == 0xa0 || n == 0x1680
    || (0x2000 ≤ n && n ≤ 0x200a) || n == 0x2028 || n == 0x2029 || n == 0x202f
    || n == 0x205f || n == 0x3000

def trimStart (s : Text) : Text := s.dropWhile isBlank

def trimEnd (s : Text) : Text := (s.reverse.dropWhile isBlank).reverse

/-- The text without the blanks at either end. -/
def trim (s : Text) : Text := trimEnd (trimStart s)

/-- Whether the text starts with a blank; the empty text does not. -/
def startsBlank : Text → Bool
  | [] => false
  | c :: _ => isBlank c

end TwoPass.Text
