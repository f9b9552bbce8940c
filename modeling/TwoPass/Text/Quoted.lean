import TwoPass.Text.Hex
import TwoPass.Text.Printable

/-! Text in quotes, as messages show it. Tab, carriage return, line feed, NUL and
the backslash have short escapes, and so has the quote in use; every other
character that is not printable is shown by its number in braces. -/
namespace TwoPass.Text

/-- One character between quotes of the given kind. -/
def escapeIn (quote : Char) (c : Char) : Text :=
  if c == '\t' then ['\\', 't']
  else if c == '\r' then ['\\', 'r']
  else if c == '\n' then ['\\', 'n']
  else if c == '\x00' then ['\\', '0']
  else if c == '\\' then ['\\', '\\']
  else if c == quote then ['\\', quote]
  else if isPrintable c then [c]
  else ['\\', 'u', '\x7b'] ++ hex c.toNat ++ ['\x7d']

def quoted (s : Text) : Text := ['"'] ++ s.flatMap (escapeIn '"') ++ ['"']

def quotedChar (c : Char) : Text := ['\''] ++ escapeIn '\'' c ++ ['\'']

def quotedList (texts : List Text) : Text :=
  ['['] ++ [',', ' '].intercalate (texts.map quoted) ++ [']']

end TwoPass.Text
