import TwoPass.Assembly.Error
import TwoPass.Logged
import TwoPass.Macro.Basic

/-! Expansion of macro calls. A call leaves an echo of its line as a comment, then its label on
a line of its own, then its body, in which calls are expanded in turn. -/
namespace TwoPass.Macro

/-- How many calls may be open inside each other. -/
def depthLimit : Nat := 64

def heading (line : Text) (call : Call) : List Text :=
  ('#' :: line) :: (call.label.map (· ++ [':'])).toList

/-- Expands one line, with at most the given number of calls open inside each other. -/
def expandWithin (macros : MacroTable) : Nat → Text → Logged AssemblyError (List Text)
  | budget, line =>
    match callOf? macros line with
    | none => pure [line]
    | some (call, m) =>
      match budget with
      | 0 => .fail (.macroRecursion m.name depthLimit)
      | budget + 1 => do
        Logged.tell [.macroExpanding m.name (depthLimit - (budget + 1))]
        let body ← Logged.flatMap (expandWithin macros budget) (m.bodyFor call.arguments)
        pure (heading line call ++ body)

/-- Expands one line. A line that calls no known macro comes back as it is. -/
def expand (macros : MacroTable) (line : Text) : Logged AssemblyError (List Text) :=
  expandWithin macros depthLimit line

end TwoPass.Macro
