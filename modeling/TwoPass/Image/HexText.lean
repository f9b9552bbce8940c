import TwoPass.Image

namespace TwoPass.Image

/-- How many lines a width makes of the whole memory; the last one may be shorter. -/
def rowCount (width : Nat) : Nat := (65536 + width - 1) / width

def row (image : Image) (width index : Nat) : List UInt16 :=
  (image.cells.toArray.extract (index * width) (index * width + width)).toList.map (·.getD 0)

/-- The words of all lines. A width of zero acts as one. -/
def rows (image : Image) (width : Nat) : List (List UInt16) :=
  let width := max width 1
  (List.range (rowCount width)).map (image.row width)

/-- The text: each line holds its words with a space between neighbours and ends in a line
feed. -/
def hexText (image : Image) (width : Nat) : Text :=
  (image.rows width).flatMap fun words => Text.hexWords words ++ ['\n']

end TwoPass.Image
