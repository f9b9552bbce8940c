import TwoPass.Binary64.Written
import TwoPass.Json.Reading
import TwoPass.Settings

/-! Reading settings from JSON. They stand in an object with the keys `sizing` and
`words_per_line`, or in a list in that order; what is missing has its standard value. Other keys
are allowed and their values are checked but not used. -/
namespace TwoPass.Settings

open Json

structure Draft where
  sizing : Option Sizing
  wordsPerLine : Option UInt64
  deriving DecidableEq, Repr

def Draft.settings (draft : Draft) : Settings :=
  ⟨draft.sizing.getD standard.sizing, draft.wordsPerLine.getD standard.wordsPerLine⟩

/-- The failure for a value of the wrong kind. A scalar is read first, so that the message can
show it. -/
def wrongKind {α : Type} (expected : Text) (s : Text) : Except Failure α :=
  let found (what rest : Text) : Except Failure α := stop (.wrongKind what expected) rest
  let quote (what : String) (s : Text) : Text := what.toList ++ ['\x60'] ++ s ++ ['\x60']
  match s with
  | [] => stop .endInValue []
  | 'n' :: rest => do found "null".toList (← keyword "ull".toList rest)
  | 't' :: rest => do found (quote "boolean " "true".toList) (← keyword "rue".toList rest)
  | 'f' :: rest => do found (quote "boolean " "false".toList) (← keyword "alse".toList rest)
  | '"' :: rest => do
    let (text, rest) ← string rest
    found ("string ".toList ++ Text.quoted text) rest
  | '[' :: _ => found "sequence".toList s
  | '\x7b' :: _ => found "map".toList s
  | c :: _ =>
    if c = '-' ∨ c.isDigit then do
      let (n, rest) ← number s
      match n with
      | .natural n => found (quote "integer " (Nat.toDigits 10 n.toNat)) rest
      | .negative n => found (quote "integer " ('-' :: Nat.toDigits 10 n)) rest
      | .floating minus x =>
        found (quote "floating point " ((if minus then ['-'] else []) ++ x.written)) rest
    else stopAt .expectedValue s

/-- A number of words: a whole number without a sign that fits in 64 bits. -/
def readWordsPerLine (s : Text) : Except Failure (UInt64 × Text) :=
  let expected := "usize".toList
  match skipSpace s with
  | [] => stop .endInValue []
  | c :: rest =>
    if c = '-' ∨ c.isDigit then do
      let (n, beyond) ← number (c :: rest)
      match n with
      | .natural n => .ok (n, beyond)
      | .negative n =>
        stop (.wrongValue ("integer \x60-".toList ++ Nat.toDigits 10 n ++ ['\x60']) expected) beyond
      | .floating .. => wrongKind expected (c :: rest)
    else wrongKind expected (c :: rest)

def sizingOf (name rest : Text) : Except Failure Sizing :=
  match Sizing.ofLabel? name with
  | some sizing => .ok sizing
  | none => stop (.unknownVariant name "\x60compatible\x60 or \x60exact\x60".toList) rest

def colon (s : Text) : Except Failure Text :=
  match skipSpace s with
  | [] => stop .endInObject []
  | ':' :: rest => .ok rest
  | rest => stopAt .expectedColon rest

/-- A way of measuring: its word as a string, or an object with that word as its only key and
the value null. An object without a key lacks a value. -/
def readSizing (s : Text) : Except Failure (Sizing × Text) :=
  match skipSpace s with
  | [] => stop .endInValue []
  | '"' :: rest => do
    let (name, rest) ← string rest
    return (← sizingOf name rest, rest)
  | '\x7b' :: rest =>
    match skipSpace rest with
    | '"' :: rest => do
      let (name, rest) ← string rest
      let sizing ← sizingOf name rest
      let rest ← colon rest
      match skipSpace rest with
      | 'n' :: rest =>
        let rest ← keyword "ull".toList rest
        match skipSpace rest with
        | [] => stop .endInObject []
        | '\x7d' :: rest => return (sizing, rest)
        | rest => stop .expectedValue rest
      | rest => wrongKind "unit".toList rest
    | [] => stop .endInObject []
    | '\x7d' :: rest => stopAt .expectedValue ('\x7d' :: rest)
    | rest => stopAt .keyNotString rest
  | rest => stopAt .expectedValue rest

/-- The failure for a known key that comes twice. It is reported behind the space after the key,
and behind the end of the object if that is next. -/
def repeated {α : Type} (key s : Text) : Except Failure α :=
  match skipSpace s with
  | '\x7d' :: rest => stop (.repeatedKey key) rest
  | rest => stop (.repeatedKey key) rest

/-- The value of a key, which comes after its colon. A known key must not come twice. -/
def readValue (draft : Draft) (key : Text) (s : Text) : Except Failure (Draft × Text) :=
  if key = "sizing".toList then
    if draft.sizing.isSome then repeated key s
    else do
      let (sizing, rest) ← readSizing (← colon s)
      return ({ draft with sizing := some sizing }, rest)
  else if key = "words_per_line".toList then
    if draft.wordsPerLine.isSome then repeated key s
    else do
      let (words, rest) ← readWordsPerLine (← colon s)
      return ({ draft with wordsPerLine := some words }, rest)
  else do
    let rest ← skipValue (← colon s)
    return (draft, rest)

/-- The members of an object from one on, the opening quote of whose key has been read. Each
member uses up a character, so as many rounds as there are characters suffice. -/
def readMembers : Nat → Draft → Text → Except Failure (Draft × Text)
  | 0, _, s => stop .endInObject s
  | rounds + 1, draft, s => do
    let (key, rest) ← string s
    let (draft, rest) ← readValue draft key rest
    match skipSpace rest with
    | [] => stop .endInObject []
    | '\x7d' :: rest => return (draft, rest)
    | ',' :: rest =>
      match skipSpace rest with
      | [] => stop .endInValue []
      | '"' :: rest => readMembers rounds draft rest
      | '\x7d' :: rest => stopAt .trailingComma ('\x7d' :: rest)
      | rest => stopAt .keyNotString rest
    | rest => stopAt .expectedObjectEnd rest

/-- An object, whose opening brace has been read. -/
def readObject (s : Text) : Except Failure (Draft × Text) :=
  match skipSpace s with
  | [] => stop .endInObject []
  | '\x7d' :: rest => .ok (⟨none, none⟩, rest)
  | '"' :: rest => readMembers (rest.length + 1) ⟨none, none⟩ rest
  | rest => stopAt .keyNotString rest

def listEnd (s : Text) : Except Failure Text :=
  match skipSpace s with
  | [] => stop .endInList []
  | ']' :: rest => .ok rest
  | ',' :: rest =>
    match skipSpace rest with
    | ']' :: rest => stopAt .trailingComma (']' :: rest)
    | rest => stopAt .trailingText rest
  | rest => stopAt .trailingText rest

/-- What follows the comma in front of another element, or nothing at the end of the list. -/
def nextElement? (s : Text) : Except Failure (Option Text) :=
  match skipSpace s with
  | [] => stop .endInList []
  | ']' :: _ => .ok none
  | ',' :: rest =>
    match skipSpace rest with
    | [] => stop .endInValue []
    | ']' :: rest => stopAt .trailingComma (']' :: rest)
    | rest => .ok (some rest)
  | rest => stopAt .expectedListEnd rest

def readList (s : Text) : Except Failure (Draft × Text) :=
  match skipSpace s with
  | [] => stop .endInList []
  | ']' :: rest => .ok (⟨none, none⟩, rest)
  | s => do
    let (sizing, rest) ← readSizing s
    match ← nextElement? rest with
    | none => return (⟨some sizing, none⟩, ← listEnd rest)
    | some rest =>
      let (words, rest) ← readWordsPerLine rest
      return (⟨some sizing, some words⟩, ← listEnd rest)

def readDraft (source : Text) : Except Failure Draft := do
  let (draft, rest) ← match skipSpace source with
    | '\x7b' :: rest => readObject rest
    | '[' :: rest => readList rest
    | s => wrongKind "struct AsmConfig".toList s
  match skipSpace rest with
  | [] => return draft
  | rest => stopAt .trailingText rest

def parse (source : Text) : Except Failure Settings := (readDraft source).map Draft.settings

end TwoPass.Settings
