import TwoPass.Assembly.Step

namespace TwoPass

/-- How instructions are measured, and how many words stand on a line of the image text. -/
structure Settings where
  sizing : Sizing
  wordsPerLine : UInt64
  deriving DecidableEq, Repr

namespace Settings

/-- What holds if nothing else is said. -/
def standard : Settings := ⟨.compatible, 24⟩

end Settings

def Sizing.label : Sizing → Text
  | .compatible => "compatible".toList
  | .exact => "exact".toList

def Sizing.ofLabel? (s : Text) : Option Sizing :=
  if s = Sizing.compatible.label then some .compatible
  else if s = Sizing.exact.label then some .exact
  else none

def Settings.json (settings : Settings) : Text :=
  "\x7b\"sizing\":\"".toList ++ settings.sizing.label ++ "\",\"words_per_line\":".toList
    ++ Nat.toDigits 10 settings.wordsPerLine.toNat ++ ['\x7d']

end TwoPass
