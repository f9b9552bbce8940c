import TwoPass.Macro.Sweep
import TwoPass.Text.Hex

namespace TwoPass

/-- What the emitting pass made of a line: the location counter in front of it and the words
placed there. -/
structure Record where
  address : UInt32
  words : List UInt16
  line : StreamLine
  deriving DecidableEq, Repr

namespace Listing

/-- A line of the listing: the address, the words filled up to twenty characters, the text. -/
def format (address : Nat) (words : List UInt16) (text : Text) : Text :=
  Text.hex4 (UInt16.ofNat address) ++ [' ', ' '] ++ (Text.hexWords words).rightpad 20 ' '
    ++ [' ', ' '] ++ Text.trimEnd text

end Listing

def Record.bytes (record : Record) : List UInt8 :=
  Text.utf8 (Listing.format record.address.toNat record.words record.line.text ++ ['\n'])

/-- Where records go. -/
inductive Sink where
  /-- Nowhere. -/
  | discard
  /-- To a writer that takes the given number of bytes before it fails, or never fails. -/
  | writer (room : Option Nat)
  deriving DecidableEq, Repr

namespace Sink

/-- Hands bytes to a sink. Gives the bytes that were written, and the sink afterwards unless it
failed. A writer that fails has still written what fits. -/
def accept : Sink → List UInt8 → List UInt8 × Option Sink
  | .discard, _ => ([], some .discard)
  | .writer none, bytes => (bytes, some (.writer none))
  | .writer (some room), bytes =>
    if bytes.length ≤ room then (bytes, some (.writer (some (room - bytes.length))))
    else (bytes.take room, none)

/-- The records that are kept of one that was taken in full. -/
def kept (sink : Sink) (record : Record) : List Record :=
  match sink with
  | .discard => []
  | .writer _ => [record]

end Sink

end TwoPass
