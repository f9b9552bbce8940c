import TwoPass.Symbol.Table

namespace TwoPass.SymbolTable

/-- One line of the dump. The name is filled up to twenty characters. -/
def dumpLine (name : Text) (value : UInt16) : Text :=
  name.rightpad 20 ' ' ++ [' '] ++ Text.hex4 value ++ ['\n']

/-- The dump: a blank line, a title and a line for each listed name. -/
def dump (t : SymbolTable) : Text :=
  "\nSymbol Table:\n".toList ++ t.listed.flatMap fun (name, value) => dumpLine name value

/-- One character inside a JSON string. Only the quote, the backslash and the controls below
the space are escaped. -/
def escapeJson (c : Char) : Text :=
  if c == '"' then ['\\', '"']
  else if c == '\\' then ['\\', '\\']
  else if c == '\x08' then ['\\', 'b']
  else if c == '\x0c' then ['\\', 'f']
  else if c == '\n' then ['\\', 'n']
  else if c == '\r' then ['\\', 'r']
  else if c == '\t' then ['\\', 't']
  else if c.toNat < 0x20 then ['\\', 'u'] ++ Text.hex4 (UInt16.ofNat c.toNat)
  else [c]

def jsonString (s : Text) : Text := ['"'] ++ s.flatMap escapeJson ++ ['"']

/-- One symbol as a JSON object, indented by two spaces. -/
def jsonEntry (symbol : Symbol) : Text :=
  "  \x7b\n    \"name\": ".toList ++ jsonString symbol.name ++ ",\n    \"value\": ".toList
    ++ Nat.toDigits 10 symbol.value.toNat ++ "\n  \x7d".toList

/-- The names of the program as a JSON array of objects, in the order of definition. -/
def json (t : SymbolTable) : Text :=
  match t.exported with
  | [] => ['[', ']']
  | symbols => ['[', '\n'] ++ [',', '\n'].intercalate (symbols.map jsonEntry) ++ ['\n', ']']

end TwoPass.SymbolTable
