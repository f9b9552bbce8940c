import TwoPass.Macro.Expansion
import TwoPass.Text.Lines

/-! The sweep over a source: it collects macro definitions and expands calls in one go. The
lines of definitions turn into comments, so that they take effect through calls only. A macro
is known from its opening line on, and defining a name again replaces it. -/
namespace TwoPass

/-- A line of the expanded program, with the number of the source line it comes from. -/
structure StreamLine where
  number : Nat
  text : Text
  deriving DecidableEq, Repr

/-- The macros collected so far, and the name of the definition that is open. -/
structure Sweep where
  macros : MacroTable
  opened : Option Text
  deriving DecidableEq, Repr

namespace Sweep

def start : Sweep := ⟨.empty, none⟩

def asComment (line : StreamLine) : StreamLine := { line with text := '#' :: ' ' :: line.text }

def closingEvents (sweep : Sweep) : List Event :=
  match sweep.opened.bind sweep.macros.get? with
  | some m => [.macroDefined m.name m.parameters m.body.length]
  | none => []

/-- Takes in one source line, and gives the stream lines that it leads to. -/
def step (sweep : Sweep) (line : StreamLine) : Logged AssemblyError (Sweep × List StreamLine) :=
  match Macro.definition? line.text with
  | some (name, parameters) =>
    pure (⟨sweep.macros.insert name ⟨name, parameters, []⟩, some name⟩, [asComment line])
  | none =>
    if Macro.closesDefinition line.text then do
      Logged.tell sweep.closingEvents
      pure ({ sweep with opened := none }, [asComment line])
    else
      match sweep.opened with
      | some name =>
        let macros := sweep.macros.modify name fun m => { m with body := m.body ++ [line.text] }
        pure ({ sweep with macros }, [asComment line])
      | none => do
        let texts ← Macro.expand sweep.macros line.text
        pure (sweep, texts.map fun text => { line with text })

/-- Takes in source lines one by one, and gives the stream and the macros in the end. -/
def run : Sweep → List StreamLine → Logged AssemblyError (List StreamLine × MacroTable)
  | sweep, [] => pure ([], sweep.macros)
  | sweep, line :: rest => do
    let (sweep, first) ← sweep.step line
    let (others, macros) ← run sweep rest
    pure (first ++ others, macros)

end Sweep

def sourceLines (source : Text) : List StreamLine :=
  ((Text.lines source).zipIdx 1).map fun (text, number) => { number, text }

/-- The expanded program and the macros of a source. -/
def sweep (source : Text) : Logged AssemblyError (List StreamLine × MacroTable) :=
  Sweep.start.run (sourceLines source)

end TwoPass
