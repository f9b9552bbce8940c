import TwoPass.Json.Number

namespace TwoPass.Json

def isSpace (c : Char) : Bool := c == ' ' || c == '\n' || c == '\t' || c == '\r'

def skipSpace (s : Text) : Text := s.dropWhile isSpace

def keyword : Text → Text → Except Failure Text
  | [], s => .ok s
  | _ :: _, [] => stop .endInValue []
  | k :: more, c :: s => if c = k then keyword more s else stopAt .expectedKeyword (c :: s)

def hexValue? (c : Char) : Option Nat :=
  if '0' ≤ c ∧ c ≤ '9' then some (c.toNat - '0'.toNat)
  else if 'a' ≤ c ∧ c ≤ 'f' then some (c.toNat - 'a'.toNat + 10)
  else if 'A' ≤ c ∧ c ≤ 'F' then some (c.toNat - 'A'.toNat + 10)
  else none

def hexValue4? (a b c d : Char) : Option Nat := do
  let a ← hexValue? a
  let b ← hexValue? b
  let c ← hexValue? c
  let d ← hexValue? d
  return a * 4096 + b * 256 + c * 16 + d

def shortEscape? (c : Char) : Option Char :=
  [('"', '"'), ('\\', '\\'), ('/', '/'), ('b', '\x08'), ('f', '\x0c'), ('n', '\n'), ('r', '\r'),
    ('t', '\t')].lookup c

def isHighSurrogate (n : Nat) : Bool := 0xd800 ≤ n && n ≤ 0xdbff

def isLowSurrogate (n : Nat) : Bool := 0xdc00 ≤ n && n ≤ 0xdfff

/-- The failure of an escape by number without four hexadecimal digits, which are looked for in
the next four bytes. -/
def badDigits {α : Type} (s : Text) : Except Failure α :=
  if Text.utf8Size s < 4 then stop .endInString [] else .error ⟨.badEscape, s, 4⟩

/-- The text of a string up to its closing quote, whose opening quote has been read. -/
def string : Text → Except Failure (Text × Text)
  | [] => stop .endInString []
  | '"' :: rest => .ok ([], rest)
  | '\\' :: 'u' :: a :: b :: c :: d :: rest =>
    match hexValue4? a b c d with
    | none => badDigits (a :: b :: c :: d :: rest)
    | some n =>
      if isLowSurrogate n then stop .loneSurrogate rest
      else if isHighSurrogate n then
        match rest with
        | '\\' :: 'u' :: e :: f :: g :: h :: rest =>
          match hexValue4? e f g h with
          | none => badDigits (e :: f :: g :: h :: rest)
          | some m =>
            if isLowSurrogate m then
              (string rest).map fun (text, rest) =>
                (Char.ofNat (0x10000 + (n - 0xd800) * 0x400 + (m - 0xdc00)) :: text, rest)
            else stop .loneSurrogate rest
        | '\\' :: 'u' :: rest => badDigits rest
        | [] | ['\\'] => stop .endInString []
        | '\\' :: rest => stopAt .cutSurrogate rest
        | rest => stopAt .cutSurrogate rest
      else (string rest).map fun (text, rest) => (Char.ofNat n :: text, rest)
  | '\\' :: 'u' :: rest => badDigits rest
  | ['\\'] => stop .endInString []
  | '\\' :: c :: rest =>
    match shortEscape? c with
    | some e => (string rest).map fun (text, rest) => (e :: text, rest)
    | none => stopAt .badEscape (c :: rest)
  | c :: rest =>
    if c.toNat < 0x20 then stopAt .controlCharacter (c :: rest)
    else (string rest).map fun (text, rest) => (c :: text, rest)

/-- Skips a string whose opening quote has been read. Its escapes are checked for their form
only, so a surrogate may stand alone. -/
def skipString : Text → Except Failure Text
  | [] => stop .endInString []
  | '"' :: rest => .ok rest
  | '\\' :: 'u' :: a :: b :: c :: d :: rest =>
    match hexValue4? a b c d with
    | none => badDigits (a :: b :: c :: d :: rest)
    | some _ => skipString rest
  | '\\' :: 'u' :: rest => badDigits rest
  | ['\\'] => stop .endInString []
  | '\\' :: c :: rest =>
    match shortEscape? c with
    | some _ => skipString rest
    | none => stopAt .badEscape (c :: rest)
  | c :: rest =>
    if c.toNat < 0x20 then stop .controlCharacter (c :: rest) else skipString rest

/-- What is skipped next: a value, the elements of a list from one on, or the members of an
object from one on. -/
inductive Part where
  | value
  | elements
  | members
  deriving DecidableEq, Repr

/-- Skips a part of a value. A round is used up for each value, element and member, so twice as
many rounds as there are characters suffice. -/
def skipPart : Nat → Part → Text → Except Failure Text
  | 0, _, s => stop .endInValue s
  | rounds + 1, .value, s =>
    match skipSpace s with
    | [] => stop .endInValue []
    | 'n' :: rest => keyword "ull".toList rest
    | 't' :: rest => keyword "rue".toList rest
    | 'f' :: rest => keyword "alse".toList rest
    | '"' :: rest => skipString rest
    | '[' :: rest =>
      match skipSpace rest with
      | [] => stop .endInList []
      | ']' :: rest => .ok rest
      | rest => skipPart rounds .elements rest
    | '\x7b' :: rest =>
      match skipSpace rest with
      | [] => stop .endInObject []
      | '\x7d' :: rest => .ok rest
      | rest => skipPart rounds .members rest
    | c :: rest =>
      if c = '-' ∨ c.isDigit then skipNumber (c :: rest)
      else stopAt .expectedValue (c :: rest)
  | rounds + 1, .elements, s => do
    let s ← skipPart rounds .value s
    match skipSpace s with
    | [] => stop .endInList []
    | ',' :: rest => skipPart rounds .elements rest
    | ']' :: rest => .ok rest
    | rest => stopAt .expectedListEnd rest
  | rounds + 1, .members, s =>
    match skipSpace s with
    | [] => stop .endInObject []
    | '"' :: rest => do
      let s ← skipString rest
      match skipSpace s with
      | [] => stop .endInObject []
      | ':' :: rest =>
        let s ← skipPart rounds .value rest
        match skipSpace s with
        | [] => stop .endInObject []
        | ',' :: rest => skipPart rounds .members rest
        | '\x7d' :: rest => .ok rest
        | rest => stopAt .expectedObjectEnd rest
      | rest => stopAt .expectedColon rest
    | rest => stopAt .keyNotString rest

def skipValue (s : Text) : Except Failure Text := skipPart (2 * s.length + 2) .value s

end TwoPass.Json
