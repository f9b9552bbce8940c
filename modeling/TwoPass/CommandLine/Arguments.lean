import TwoPass.Settings
import TwoPass.Text.Split

/-! The arguments of the command line: two file names, and options anywhere between them. They
are read from left to right, and the first one that is wrong, or that asks for information,
decides. -/
namespace TwoPass.CommandLine

structure Options where
  input : Text
  output : Text
  sizing : Option Sizing
  config : Option Text
  wordsPerLine : Option UInt64
  symbolsJson : Option Text
  noListing : Bool
  deriving DecidableEq, Repr

inductive Request where
  | assemble (options : Options)
  /-- Help or the version. -/
  | information
  /-- Nothing that makes sense. -/
  | misuse
  deriving DecidableEq, Repr

/-- What has been read so far. File names are kept in their order. -/
structure Draft where
  names : List Text
  sizing : Option Sizing
  config : Option Text
  wordsPerLine : Option UInt64
  symbolsJson : Option Text
  noListing : Bool
  deriving DecidableEq, Repr

namespace Draft

def blank : Draft := ⟨[], none, none, none, none, false⟩

/-- The request at the end of the arguments, which must have named two files. -/
def finish (draft : Draft) : Request :=
  match draft.names with
  | [input, output] =>
    .assemble ⟨input, output, draft.sizing, draft.config, draft.wordsPerLine, draft.symbolsJson,
      draft.noListing⟩
  | _ => .misuse

/-- Adds a file name. There is room for two, and none is empty. -/
def addName (draft : Draft) (name : Text) : Option Draft :=
  if name.isEmpty ∨ 2 ≤ draft.names.length then none
  else some { draft with names := draft.names ++ [name] }

def addNames (draft : Draft) (names : List Text) : Option Draft :=
  names.foldlM addName draft

end Draft

inductive ValueOption where
  | sizing
  | config
  | wordsPerLine
  | symbolsJson
  deriving DecidableEq, Repr

def ValueOption.ofName? (name : Text) : Option ValueOption :=
  [("sizing".toList, .sizing), ("config".toList, .config),
    ("words-per-line".toList, .wordsPerLine), ("symbols-json".toList, .symbolsJson)].lookup name

/-- A number of words: decimal digits, possibly after a plus sign, for a number of 64 bits. -/
def count? (s : Text) : Option UInt64 :=
  let digits := match s with
    | '+' :: rest => rest
    | s => s
  match Text.decimal? digits with
  | some n => if n < Nat.pow 2 64 then some (UInt64.ofNat n) else none
  | none => none

def fileName? (s : Text) : Option Text := if s.isEmpty then none else some s

/-- The value for an option that has had none so far. -/
def firstValue {α : Type} (previous value : Option α) : Option (Option α) :=
  if previous.isSome then none else value.map some

/-- Takes a value for an option. An option takes one value, and it must be a proper one. -/
def Draft.setOption (draft : Draft) (value : Text) : ValueOption → Option Draft
  | .sizing =>
    (firstValue draft.sizing (Sizing.ofLabel? value)).map fun v => { draft with sizing := v }
  | .config =>
    (firstValue draft.config (fileName? value)).map fun v => { draft with config := v }
  | .wordsPerLine =>
    (firstValue draft.wordsPerLine (count? value)).map fun v => { draft with wordsPerLine := v }
  | .symbolsJson =>
    (firstValue draft.symbolsJson (fileName? value)).map fun v => { draft with symbolsJson := v }

inductive Argument where
  /-- Two dashes, after which everything is a file name. -/
  | separator
  /-- Two dashes and a name, possibly with a value after an equals sign. -/
  | long (name : Text) (value : Option Text)
  /-- One dash and letters. -/
  | short (letter : Char)
  | plain (text : Text)
  deriving DecidableEq, Repr

/-- The form of an argument. A single dash is plain. -/
def Argument.ofText : Text → Argument
  | ['-', '-'] => .separator
  | '-' :: '-' :: rest =>
    match Text.cutFirst '=' rest with
    | some (name, value) => .long name (some value)
    | none => .long rest none
  | '-' :: c :: _ => .short c
  | s => .plain s

/-- The value that an argument can be for the option in front of it. -/
def Argument.asValue? : Argument → Option Text
  | .plain text => some text
  | _ => none

/-- The request of arguments, given what came before them. -/
def requestFrom (draft : Draft) : List Text → Request
  | [] => draft.finish
  | argument :: rest =>
    match Argument.ofText argument with
    | .separator =>
      match draft.addNames rest with
      | some draft => draft.finish
      | none => .misuse
    | .plain name =>
      match draft.addName name with
      | some draft => requestFrom draft rest
      | none => .misuse
    | .short letter => if letter = 'h' ∨ letter = 'V' then .information else .misuse
    | .long name value =>
      match ValueOption.ofName? name with
      | some option =>
        match value with
        | some value =>
          match draft.setOption value option with
          | some draft => requestFrom draft rest
          | none => .misuse
        | none =>
          match rest with
          | [] => .misuse
          | next :: rest =>
            match (Argument.ofText next).asValue?.bind (draft.setOption · option) with
            | some draft => requestFrom draft rest
            | none => .misuse
      | none =>
        if value.isSome then .misuse
        else if name = "help".toList ∨ name = "version".toList then .information
        else if name = "no-listing".toList ∧ ¬draft.noListing then
          requestFrom { draft with noListing := true } rest
        else .misuse

def request (arguments : List Text) : Request := requestFrom .blank arguments

end TwoPass.CommandLine
