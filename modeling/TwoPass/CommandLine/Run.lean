import TwoPass.Assembly.Run
import TwoPass.CommandLine.Arguments
import TwoPass.CommandLine.Host
import TwoPass.Image.HexText
import TwoPass.Settings.Reading
import TwoPass.Symbol.Dump

/-! The work of the command line. Settings are read first, then the source; files are written
only after the assembly has succeeded, the image before the symbols. -/
namespace TwoPass.CommandLine

inductive Failure where
  | readingConfig (name : Text) (cause : FileError)
  | parsingConfig (name : Text) (cause : String)
  | zeroWordsPerLine
  | reading (name : Text) (cause : FileError)
  | assembly (error : AssemblyError)
  | creating (name : Text) (cause : FileError)
  deriving DecidableEq, Repr

namespace Failure

def message : Failure → String
  | .readingConfig name _ => "reading config " ++ String.ofList name
  | .parsingConfig name _ => "parsing config " ++ String.ofList name
  | .zeroWordsPerLine => "--words-per-line must be at least 1"
  | .reading name _ => "reading " ++ String.ofList name
  | .assembly error => error.message
  | .creating name _ => "creating " ++ String.ofList name

def cause? : Failure → Option String
  | .readingConfig _ cause | .reading _ cause | .creating _ cause => some cause.message
  | .parsingConfig _ cause => some cause
  | .zeroWordsPerLine => none
  | .assembly error => error.cause?.map (·.message)

def indented (s : Text) : Text :=
  "    ".toList ++ Text.replaceAll ['\n'] "\n    ".toList s

/-- The whole complaint: the message, and the cause in a paragraph of its own. -/
def complaint (failure : Failure) : String :=
  "Error: " ++ failure.message ++ "\n" ++
    match failure.cause? with
    | some cause => "\nCaused by:\n" ++ String.ofList (indented cause.toList) ++ "\n"
    | none => ""

end Failure

variable {m : Type → Type} [Monad m] [Host m]

/-- The settings in a file, or the standard ones if no file is named. -/
def fileSettings (config : Option Text) : ExceptT Failure m Settings := do
  match config with
  | none => return .standard
  | some name =>
    match ← (Host.read name : m _) with
    | .error cause => throw (.readingConfig name cause)
    | .ok text =>
      match Settings.parse text with
      | .error failure => throw (.parsingConfig name (failure.message text))
      | .ok settings => return settings

/-- The settings with what the options say instead. -/
def Options.override (options : Options) (settings : Settings) : Except Failure Settings :=
  let settings := { settings with sizing := options.sizing.getD settings.sizing }
  match options.wordsPerLine with
  | none => .ok settings
  | some words =>
    if words = 0 then .error .zeroWordsPerLine else .ok { settings with wordsPerLine := words }

def readSource (name : Text) : ExceptT Failure m Text := do
  match ← (Host.read name : m _) with
  | .error cause => throw (.reading name cause)
  | .ok text => return text

def create (name text : Text) : ExceptT Failure m Unit := do
  match ← (Host.write name text : m _) with
  | .error cause => throw (.creating name cause)
  | .ok () => return ()

/-- Assembles a source, and prints the listing and the symbols unless they are not wanted. -/
def assembleAndList (sizing : Sizing) (noListing : Bool) (source : Text) :
    ExceptT Failure m Assembly := do
  let run := Assembly.run sizing (if noListing then .discard else .writer none) source
  (Host.print run.listing : m Unit)
  match run.result with
  | .error error => throw (.assembly error)
  | .ok assembly =>
    if !noListing then (Host.print (Text.utf8 assembly.symbols.dump) : m Unit)
    return assembly

def assemble (options : Options) : ExceptT Failure m Unit := do
  let settings ← fileSettings options.config
  let settings ← ExceptT.mk (pure (options.override settings))
  let source ← readSource options.input
  let assembly ← assembleAndList settings.sizing options.noListing source
  create options.output (assembly.image.hexText settings.wordsPerLine.toNat)
  match options.symbolsJson with
  | none => return ()
  | some name => create name assembly.symbols.json

/-- Does what the arguments ask for, and gives the exit code: zero for success, one for a failure
that has been complained about, two for misuse. -/
def run (arguments : List Text) : m UInt32 := do
  match request arguments with
  | .misuse => return 2
  | .information => return 0
  | .assemble options =>
    match ← (assemble options).run with
    | .ok () => return 0
    | .error failure =>
      Host.complain failure.complaint
      return 1

end TwoPass.CommandLine
