import TwoPass.NameMap

namespace TwoPass.CommandLine

inductive FileError where
  | notFound
  | isDirectory
  | notDirectory
  | nameTooLong
  /-- The bytes are no UTF-8 text. -/
  | notText
  | other (message : String)
  deriving DecidableEq, Repr

def FileError.message : FileError → String
  | .notFound => "No such file or directory (os error 2)"
  | .isDirectory => "Is a directory (os error 21)"
  | .notDirectory => "Not a directory (os error 20)"
  | .nameTooLong => "File name too long (os error 36)"
  | .notText => "stream did not contain valid UTF-8"
  | .other message => message

/-- The operations of a world. -/
class Host (m : Type → Type) where
  /-- The text of a file. -/
  read : Text → m (Except FileError Text)
  /-- Puts a text in a file, which is created if there is none. -/
  write : Text → Text → m (Except FileError Unit)
  /-- Adds bytes to the output. -/
  print : List UInt8 → m Unit
  /-- Adds a message to the error output. -/
  complain : String → m Unit

end TwoPass.CommandLine
