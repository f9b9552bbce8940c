import TwoPass.Text.Basic

namespace TwoPass.Text

/-- Replacement with a number of characters still to be passed over, which belong to
the occurrence found last. -/
def replaceFrom (pattern replacement : Text) : Nat → Text → Text
  | _, [] => []
  | skip + 1, _ :: rest => replaceFrom pattern replacement skip rest
  | 0, c :: rest =>
    if pattern.isPrefixOf (c :: rest) then
      replacement ++ replaceFrom pattern replacement (pattern.length - 1) rest
    else c :: replaceFrom pattern replacement 0 rest

/-- Replaces each leftmost occurrence of a non-empty pattern. An empty pattern is
left alone. -/
def replaceAll (pattern replacement s : Text) : Text :=
  if pattern.isEmpty then s else replaceFrom pattern replacement 0 s

end TwoPass.Text
