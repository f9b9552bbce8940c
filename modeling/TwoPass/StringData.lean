import TwoPass.Text.Blank

namespace TwoPass.StringData

/-- The text without all double quotes at its ends. -/
def unquote (s : Text) : Text :=
  ((s.dropWhile (· == '"')).reverse.dropWhile (· == '"')).reverse

/-- One word for each character of the operand, and the final zero. -/
def plain (operand : Text) : List UInt16 :=
  (unquote (Text.trim operand)).map (fun c => UInt16.ofNat (c.toNat % 256)) ++ [0]

/-- Two bytes to a word, the first one in the low half. A last byte without a partner gets a
zero. -/
def pack : List UInt16 → List UInt16
  | [] => []
  | [low] => [low]
  | low :: high :: rest => (low ||| (high <<< 8)) :: pack rest

def packed (operand : Text) : List UInt16 := pack (plain operand)

end TwoPass.StringData
