import TwoPass.Text.Blank

namespace TwoPass.Text

/-- The parts between commas, each without the blanks at its ends. There is always at
least one part: the empty text gives one empty part. -/
def splitList (s : Text) : List Text := (s.splitOn ',').map trim

/-- The text in front of the first occurrence of a character and the text after it. -/
def cutFirst (mark : Char) : Text → Option (Text × Text)
  | [] => none
  | c :: rest =>
    if c = mark then some ([], rest)
    else (cutFirst mark rest).map fun (before, after) => (c :: before, after)

def beforeLast (mark : Char) : Text → Option Text
  | [] => none
  | c :: rest =>
    match beforeLast mark rest with
    | some before => some (c :: before)
    | none => if c = mark then some [] else none

end TwoPass.Text
