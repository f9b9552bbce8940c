import TwoPass.Text.Basic

/-! Lines of a source. A line ends at a line feed, and one carriage return right in
front of that line feed belongs to the ending. A final line feed starts no further
line, and the last line keeps a carriage return that no line feed follows. -/
namespace TwoPass.Text

/-- The text without one carriage return at its end. -/
def dropReturn (line : Text) : Text :=
  if line.getLast? = some '\r' then line.dropLast else line

/-- Lines of what is left, given the characters of the current line so far, last one first. -/
def linesFrom (current : Text) : Text → List Text
  | [] => if current.isEmpty then [] else [current.reverse]
  | c :: rest =>
    if c = '\n' then dropReturn current.reverse :: linesFrom [] rest
    else linesFrom (c :: current) rest

def lines (s : Text) : List Text := linesFrom [] s

end TwoPass.Text
