import TwoPass.Expression.Error

namespace TwoPass

/-- The reason of a failed assembly. Lines are counted from one in the source. -/
inductive AssemblyError where
  /-- An expression on the line has no value, or a constant has no proper name. -/
  | expression (line : Nat) (text : Text) (cause : Expression.Error)
  /-- The mnemonic names neither a directive nor an instruction. -/
  | unknownInstruction (line : Nat) (mnemonic : Text)
  /-- An instruction has more than three operands. -/
  | operandCount (line : Nat) (mnemonic : Text) (count : Nat)
  /-- Macro calls are nested beyond the limit. -/
  | macroRecursion (name : Text) (limit : Nat)
  /-- The listing could not be written in full. -/
  | listing
  deriving DecidableEq, Repr

/-- The wording of each error, without its cause. -/
def AssemblyError.message : AssemblyError → String
  | .expression line text _ =>
    s!"illegal register name or expression, or undefined symbol at line {line}: "
      ++ String.ofList text
  | .unknownInstruction line mnemonic =>
    "unrecognized instruction " ++ String.ofList mnemonic ++ s!" at line {line}"
  | .operandCount line mnemonic count =>
    String.ofList mnemonic ++ s!" takes at most 3 operands, found {count} at line {line}"
  | .macroRecursion name limit =>
    "macro " ++ String.ofList name ++ s!" expands recursively beyond {limit} levels"
  | .listing => "listing output failed: failed to write whole buffer"

def AssemblyError.cause? : AssemblyError → Option Expression.Error
  | .expression _ _ cause => some cause
  | _ => none

end TwoPass
