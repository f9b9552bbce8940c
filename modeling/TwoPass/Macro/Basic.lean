import TwoPass.Line
import TwoPass.NameMap
import TwoPass.Text.Replace

/-! Macros: how a line defines or calls one, and what a call makes of the body. A definition
looks like `MACRO name(parameter, parameter)`, a call like `label: name(argument, argument)`. -/
namespace TwoPass

structure Macro where
  name : Text
  parameters : List Text
  body : List Text
  deriving DecidableEq, Repr

/-- The macros known at some point of a source, by name. -/
abbrev MacroTable := NameMap Macro

namespace Macro

/-- A word, possibly empty, and the text between the parenthesis that follows it and the last
closing parenthesis. -/
def nameAndList? (s : Text) : Option (Text × Text) :=
  let (name, rest) := Text.splitWord (Text.trimStart s)
  match Text.trimStart rest with
  | '(' :: rest => (Text.beforeLast ')' rest).map fun inner => (name, inner)
  | _ => none

/-- What follows a keyword at the start of a text. The keyword is given in upper case, and the
text may spell it in either case. -/
def dropKeyword? : Text → Text → Option Text
  | [], rest => some rest
  | _ :: _, [] => none
  | k :: keyword, c :: rest => if c.toUpper = k then dropKeyword? keyword rest else none

/-- The name and parameters on a line that opens a definition. The line's comment is part of
what is read. -/
def definition? (line : Text) : Option (Text × List Text) :=
  match dropKeyword? "MACRO".toList (Text.trimStart line) with
  | none => none
  | some rest =>
    if Text.startsBlank rest then
      (nameAndList? rest).map fun (name, inner) => (name, Text.splitList inner)
    else none

/-- Whether a line closes a definition. Whatever follows the keyword is ignored. -/
def closesDefinition (line : Text) : Bool :=
  (dropKeyword? "ENDMACRO".toList (Text.trimStart line)).isSome

structure Call where
  label : Option Text
  name : Text
  arguments : List Text
  deriving DecidableEq, Repr

def call? (line : Text) : Option Call :=
  let (label, rest) := splitLabel (stripComment line)
  match nameAndList? rest with
  | none => none
  | some (name, inner) =>
    if name.isEmpty then none
    else some { label, name, arguments := Text.splitList inner }

/-- The call on a line together with the macro it calls, if there is such a macro. -/
def callOf? (macros : MacroTable) (line : Text) : Option (Call × Macro) :=
  (call? line).bind fun call => (macros.get? call.name).map fun m => (call, m)

/-- Replaces parameters by arguments, one pair after the other. A later pair also applies to
what an earlier one has put in. -/
def substitute (pairs : List (Text × Text)) (line : Text) : Text :=
  pairs.foldl (fun text (parameter, argument) => Text.replaceAll parameter argument text) line

/-- The lines of the body for a list of arguments. Parameters without an argument stay, and
arguments without a parameter are dropped. -/
def bodyFor (m : Macro) (arguments : List Text) : List Text :=
  m.body.map (substitute (m.parameters.zip arguments))

end Macro

end TwoPass
