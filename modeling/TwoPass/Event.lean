import TwoPass.Text.Hex
import TwoPass.Text.Quoted

namespace TwoPass

/-- The two walks over a program: the first measures it, the second produces its words. -/
inductive Pass where
  | sizing
  | emit
  deriving DecidableEq, Repr

inductive Level where
  | warn
  | debug
  | trace
  deriving DecidableEq, Repr

/-- Something worth telling. -/
inductive Event where
  /-- A program tried to define a register name. -/
  | registerKept (name : Text)
  /-- A register operand does not fit in its four bits. -/
  | fieldCut (destination source : UInt16) (mnemonic : Text)
  /-- A word replaces one written before. -/
  | wordReplaced (address : UInt16)
  /-- A macro definition was closed. -/
  | macroDefined (name : Text) (parameters : List Text) (lines : Nat)
  /-- A macro call is about to be expanded, inside the given number of other calls. -/
  | macroExpanding (name : Text) (depth : Nat)
  /-- The sweep over the source is done. -/
  | swept (lines macros : Nat)
  /-- A line is about to be processed. -/
  | lineMet (number counter : Nat) (text : Text)
  /-- A pass is done. -/
  | passDone (pass : Pass) (counter symbols : Nat)
  deriving DecidableEq, Repr

namespace Event

def level : Event → Level
  | .registerKept .. | .fieldCut .. | .wordReplaced .. => .warn
  | .macroDefined .. | .swept .. | .passDone .. => .debug
  | .macroExpanding .. | .lineMet .. => .trace

def message : Event → String
  | .registerKept name =>
    "ignoring attempt to rebind a register name symbol=" ++ String.ofList name
  | .fieldCut destination source mnemonic =>
    s!"register field wider than 4 bits, truncating dst={destination.toNat} src={source.toNat} "
      ++ "mnemonic=" ++ String.ofList mnemonic
  | .wordReplaced address =>
    "overwriting previously assembled word at 0x" ++ String.ofList (Text.hex4 address)
  | .macroDefined name parameters lines =>
    "macro defined macro_name=" ++ String.ofList name ++ " params="
      ++ String.ofList (Text.quotedList parameters) ++ s!" lines={lines}"
  | .macroExpanding name depth =>
    "expanding macro_name=" ++ String.ofList name ++ s!" depth={depth}"
  | .swept lines macros => s!"preprocessed lines={lines} macros={macros}"
  | .lineMet number counter text =>
    s!"processing line={number} lc={counter} text=" ++ String.ofList text
  | .passDone pass counter symbols =>
    let which := match pass with
      | .sizing => "Sizing"
      | .emit => "Emit"
    s!"pass complete pass={which} end={counter} symbols={symbols}"

end Event

def Level.label : Level → String
  | .warn => "WARN"
  | .debug => "DEBUG"
  | .trace => "TRACE"

end TwoPass
