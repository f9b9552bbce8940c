import TwoPass.CommandLine.Host
import TwoPass.Text.Split

/-! Files in memory. Names are followed part by part, from the root if they start with a slash and
from the working directory if they do not. Each part but the last has to be a directory. A path is
what leads to a file or directory from the root, a slash in front of each part, so the path of the
root itself is empty. -/
namespace TwoPass.CommandLine

inductive Content where
  | text (text : Text)
  /-- Bytes that are no UTF-8 text. -/
  | binary (bytes : List UInt8)
  deriving DecidableEq, Repr

def Content.ofBytes (bytes : ByteArray) : Content :=
  match String.fromUTF8? bytes with
  | some s => .text s.toList
  | none => .binary bytes.toList

/-- All files and directories by their paths, the path of the working directory, and what has been
printed. -/
structure Disk where
  files : NameMap Content
  directories : List Text
  working : Text
  output : List UInt8
  complaints : List String
  deriving DecidableEq, Repr

def longestPart : Nat := 255

def longestName : Nat := 4095

structure FileName where
  /-- Whether its first part is looked for in the root. -/
  absolute : Bool
  directories : List Text
  last : Text
  /-- Whether a slash follows the last part. -/
  slashed : Bool
  deriving DecidableEq, Repr

/-- Takes a name apart. Slashes in a row count as one, and a name of slashes only stands for the
directory it starts from. -/
def FileName.ofText (name : Text) : FileName :=
  let parts := (name.splitOn '/').filter (!·.isEmpty)
  { absolute := name.head? = some '/'
    directories := parts.dropLast
    last := parts.getLastD ['.']
    slashed := name.getLast? = some '/' }

/-- Whether a part means a directory by itself: the same one, or the one it is in. -/
def isDots (part : Text) : Bool := part == ['.'] || part == ['.', '.']

namespace Disk

def pathIn (directory part : Text) : Text := directory ++ '/' :: part

/-- The directory that a directory is in. The root is in itself. -/
def parent (path : Text) : Text := (Text.beforeLast '/' path).getD []

/-- The directories on the way to a path, the nearest one first. -/
def ancestorsFrom : Nat → Text → List Text
  | 0, _ => []
  | rounds + 1, path =>
    match Text.beforeLast '/' path with
    | some above => above :: ancestorsFrom rounds above
    | none => []

def ancestors (path : Text) : List Text := ancestorsFrom path.length path

/-- The path that a name spells from a working directory, without parts that lead nowhere. -/
def pathFrom (working name : Text) : Text :=
  ((name.splitOn '/').filter fun part => part != [] && part != ['.']).foldl pathIn
    (if name.head? = some '/' then [] else working)

/-- A disk with a working directory, with files and directories of the given names, and with the
directories on the way to all of them. -/
def ofFiles (working : Text) (files : List (Text × Content)) (directories : List Text) : Disk :=
  let files := files.foldl (fun m (name, content) => m.insert (pathFrom working name) content)
    NameMap.empty
  let directories := working :: directories.map (pathFrom working)
  { files
    directories := directories ++ (directories ++ files.entries.map (·.1)).flatMap ancestors
    working
    output := []
    complaints := [] }

def isDirectory (disk : Disk) (path : Text) : Bool :=
  path.isEmpty || disk.directories.contains path

def enter (disk : Disk) (directory part : Text) : Except FileError Text :=
  if part = ['.'] then .ok directory
  else if part = ['.', '.'] then .ok (parent directory)
  else if longestPart < Text.utf8Size part then .error .nameTooLong
  else
    let path := pathIn directory part
    if disk.isDirectory path then .ok path
    else if (disk.files.get? path).isSome then .error .notDirectory
    else .error .notFound

/-- The directory in which the last part of a name is looked for. -/
def locate (disk : Disk) (name : Text) : Except FileError (Text × FileName) := do
  if longestName < Text.utf8Size name then throw .nameTooLong
  let name := FileName.ofText name
  let start := if name.absolute then [] else disk.working
  return (← name.directories.foldlM disk.enter start, name)

/-- The text of a file. A slash may follow the name of a directory only. -/
def readText (disk : Disk) (name : Text) : Except FileError Text := do
  let (directory, name) ← disk.locate name
  let path := pathIn directory name.last
  if isDots name.last then throw .isDirectory
  else if longestPart < Text.utf8Size name.last then throw .nameTooLong
  else if disk.isDirectory path then throw .isDirectory
  else
    match disk.files.get? path with
    | none => throw .notFound
    | some content =>
      if name.slashed then throw .notDirectory
      else
        match content with
        | .text text => return text
        | .binary _ => throw .notText

/-- The path of the file that a name to write to means. A name with a slash behind it is that of a
directory, whether there is one or not. -/
def target (disk : Disk) (name : Text) : Except FileError Text := do
  let (directory, name) ← disk.locate name
  let path := pathIn directory name.last
  if isDots name.last || name.slashed then throw .isDirectory
  else if longestPart < Text.utf8Size name.last then throw .nameTooLong
  else if disk.isDirectory path then throw .isDirectory
  else return path

/-- The disk with a text in a file, which is created if there is none. -/
def put (disk : Disk) (text path : Text) : Disk :=
  { disk with files := disk.files.insert path (.text text) }

def writeText (disk : Disk) (name text : Text) : Except FileError Disk :=
  (disk.target name).map (disk.put text)

end Disk

instance : Host (StateM Disk) where
  read name := fun disk => (disk.readText name, disk)
  write name text := fun disk =>
    match disk.writeText name text with
    | .ok disk => (.ok (), disk)
    | .error e => (.error e, disk)
  print bytes := fun disk => ((), { disk with output := disk.output ++ bytes })
  complain message := fun disk => ((), { disk with complaints := disk.complaints ++ [message] })

end TwoPass.CommandLine
