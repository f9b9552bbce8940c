import TwoPass.CommandLine.Disk
import TwoPass.CommandLine.Run

namespace TwoPass.CommandLine

/-- The reason that a code stands for. Some operations give the code as a negative number. -/
def reason? (code : UInt32) : Option FileError :=
  let code := if 0x80000000 ≤ code then 0 - code else code
  if code = 20 then some .notDirectory
  else if code = 21 then some .isDirectory
  else if code = 36 then some .nameTooLong
  else none

def fileError (e : IO.Error) : FileError :=
  match e with
  | .noFileOrDirectory .. => .notFound
  | .inappropriateType _ code _ | .resourceExhausted _ code _ | .illegalOperation code _
  | .invalidArgument _ code _ => (reason? code).getD (.other (toString e))
  | _ => .other (toString e)

instance : Host IO where
  read name := do
    try
      match Content.ofBytes (← IO.FS.readBinFile (String.ofList name)) with
      | .text text => return .ok text
      | .binary _ => return .error .notText
    catch e => return .error (fileError e)
  write name text := do
    try
      IO.FS.writeFile (String.ofList name) (String.ofList text)
      return .ok ()
    catch e => return .error (fileError e)
  print bytes := do
    (← IO.getStdout).write ⟨bytes.toArray⟩
  complain message := IO.eprint message

end TwoPass.CommandLine

def main (arguments : List String) : IO UInt32 :=
  TwoPass.CommandLine.run (arguments.map String.toList)
