import TwoPass.Proofs.Json.Written
import TwoPass.Proofs.Symbol.History

namespace TwoPass.SymbolTable

/-- A symbol as a JSON value: an object with its name and its value, and nothing else. -/
def symbolValue (symbol : Text × UInt16) : Json.Value :=
  .object
    [("name".toList, .string symbol.1), ("value".toList, .number (.natural symbol.2.toUInt64))]

/-- The text of an entry from the closing quote of the name on. -/
def entryEnd (value : UInt16) : Text :=
  [',', '\n', ' ', ' ', ' ', ' '] ++ jsonString "value".toList ++ [':', ' ']
    ++ Nat.toDigits 10 value.toNat ++ ['\n', ' ', ' ', '\x7d']

/-- An entry up to its name, and what follows the name. -/
theorem jsonEntry_eq (symbol : Symbol) :
    jsonEntry symbol = [' ', ' ', '\x7b', '\n', ' ', ' ', ' ', ' '] ++ jsonString "name".toList ++
      [':', ' '] ++ jsonString symbol.name ++ entryEnd symbol.value := by
  have hName : "  \x7b\n    \"name\": ".toList =
      [' ', ' ', '\x7b', '\n', ' ', ' ', ' ', ' '] ++ jsonString "name".toList ++ [':', ' '] := by
    decide
  have hValue : ",\n    \"value\": ".toList =
      [',', '\n', ' ', ' ', ' ', ' '] ++ jsonString "value".toList ++ [':', ' '] := by
    decide
  have hEnd : "\n  \x7d".toList = ['\n', ' ', ' ', '\x7d'] := by decide
  unfold jsonEntry entryEnd
  rw [hName, hValue, hEnd]
  generalize jsonString "name".toList = name
  generalize jsonString "value".toList = value
  simp

theorem jsonString_append (s rest : Text) :
    jsonString s ++ rest = '"' :: (s.flatMap escapeJson ++ '"' :: rest) := by
  simp [jsonString]

/-- The comma in front of the value, and the value behind it. -/
theorem decodeMembers_entryEnd (rounds : Nat) (value : UInt16) (rest : Text) :
    ∃ more, Json.skipSpace (entryEnd value ++ rest) = ',' :: more ∧
      Json.decodeMembers (rounds + 2) more =
        .ok ([("value".toList, .number (.natural value.toUInt64))], rest) := by
  have hEnds : Json.EndsNumber ('\n' :: ' ' :: ' ' :: '\x7d' :: rest) := by
    rintro c ⟨⟩
    decide
  have hSpace : Json.skipSpace (' ' :: (Nat.toDigits 10 value.toNat ++
      '\n' :: ' ' :: ' ' :: '\x7d' :: rest)) =
      Nat.toDigits 10 value.toUInt64.toNat ++ '\n' :: ' ' :: ' ' :: '\x7d' :: rest := by
    rw [UInt16.toNat_toUInt64]
    exact Json.skipSpace_toDigits value.toNat _
  have hText : entryEnd value ++ rest = ',' :: '\n' :: ' ' :: ' ' :: ' ' :: ' ' ::
      (jsonString "value".toList ++ ':' :: ' ' :: (Nat.toDigits 10 value.toNat ++
        '\n' :: ' ' :: ' ' :: '\x7d' :: rest)) := by
    unfold entryEnd
    generalize jsonString "value".toList = key
    simp
  rw [hText, jsonString_append]
  generalize "value".toList = key
  exact ⟨_, rfl, Json.decodeMembers_last rfl (Json.string_escaped key _) rfl
    (Json.decodeValue_natural value.toUInt64 hEnds hSpace) rfl⟩

/-- An entry is read back as its name and value. -/
theorem decodeValue_jsonEntry (rounds : Nat) (symbol : Symbol) (rest : Text) :
    Json.decodeValue (rounds + 4) (jsonEntry symbol ++ rest) =
      .ok (symbolValue (symbol.name, symbol.value), rest) := by
  obtain ⟨more, hComma, hMembers⟩ := decodeMembers_entryEnd rounds symbol.value rest
  have hName : Json.decodeValue (rounds + 2)
      (' ' :: (jsonString symbol.name ++ (entryEnd symbol.value ++ rest))) =
      .ok (.string symbol.name, entryEnd symbol.value ++ rest) := by
    rw [jsonString_append]
    exact Json.decodeValue_string rfl (Json.string_escaped symbol.name _)
  have hText : jsonEntry symbol ++ rest =
      ' ' :: ' ' :: '\x7b' :: '\n' :: ' ' :: ' ' :: ' ' :: ' ' ::
        (jsonString "name".toList ++ ':' :: ' ' :: (jsonString symbol.name ++
          (entryEnd symbol.value ++ rest))) := by
    rw [jsonEntry_eq]
    generalize jsonString "name".toList = key
    simp
  rw [hText, jsonString_append, symbolValue]
  generalize "name".toList = key
  rw [Json.decodeValue_object rfl rfl,
    Json.decodeMembers_next rfl (Json.string_escaped key _) rfl hName hComma, hMembers]
  rfl

/-- The text of a list from the first entry on. -/
def entriesText (symbols : List Symbol) : Text :=
  [',', '\n'].intercalate (symbols.map jsonEntry) ++ ['\n', ']']

theorem entriesText_cons_cons (symbol next : Symbol) (others : List Symbol) :
    entriesText (symbol :: next :: others) =
      jsonEntry symbol ++ ',' :: '\n' :: entriesText (next :: others) := by
  rw [entriesText, List.map_cons, List.map_cons, List.intercalate_cons_cons, entriesText]
  simp only [List.append_assoc, List.cons_append, List.nil_append, List.map_cons]

/-- Entries with a comma between neighbours, up to the end of the list. Each entry uses up one round
of its own, and the last one needs four more for what is inside it. -/
theorem decodeElements_entriesText (symbol : Symbol) (others : List Symbol) (rounds : Nat) :
    Json.decodeElements (rounds + others.length + 5) ('\n' :: entriesText (symbol :: others)) =
      .ok ((symbol :: others).map fun symbol => symbolValue (symbol.name, symbol.value), []) := by
  have hBreak : ∀ s, Json.skipSpace ('\n' :: s) = Json.skipSpace s := fun _ => rfl
  rw [Json.decodeElements_congr (hBreak _)]
  induction others generalizing symbol with
  | nil =>
      rw [entriesText, List.map_singleton, List.intercalate_singleton]
      exact Json.decodeElements_last (decodeValue_jsonEntry rounds symbol ['\n', ']']) rfl
  | cons next others ih =>
      have hEntry := decodeValue_jsonEntry (rounds + others.length + 1) symbol
        (',' :: '\n' :: entriesText (next :: others))
      have hOthers := ih next
      rw [← Json.decodeElements_congr (hBreak _)] at hOthers
      rw [entriesText_cons_cons]
      have hNext : Json.decodeElements (rounds + others.length + 5 + 1)
          (jsonEntry symbol ++ ',' :: '\n' :: entriesText (next :: others)) = _ :=
        Json.decodeElements_next hEntry rfl
      rw [hOthers] at hNext
      exact hNext

/-- There are bytes enough for a round per entry. -/
theorem length_le_entriesText (symbol : Symbol) (others : List Symbol) :
    others.length + 4 ≤ (entriesText (symbol :: others)).length := by
  have hEntry : ∀ symbol, 2 ≤ (jsonEntry symbol).length := by
    intro symbol
    rw [jsonEntry_eq]
    simp
  induction others generalizing symbol with
  | nil =>
      have hFirst := hEntry symbol
      simp [entriesText]
      omega
  | cons next others ih =>
      have hOthers := ih next
      rw [entriesText_cons_cons]
      simp only [List.length_append, List.length_cons]
      omega

/-- The first entry opens with a brace. -/
theorem exists_skipSpace_entriesText (symbol : Symbol) (others : List Symbol) :
    ∃ rest, Json.skipSpace ('\n' :: entriesText (symbol :: others)) = '\x7b' :: rest := by
  have hEntry : ∃ rest, entriesText (symbol :: others) = jsonEntry symbol ++ rest := by
    cases others with
    | nil =>
        refine ⟨['\n', ']'], ?_⟩
        rw [entriesText, List.map_singleton, List.intercalate_singleton]
    | cons next others => exact ⟨_, entriesText_cons_cons symbol next others⟩
  obtain ⟨rest, hText⟩ := hEntry
  rw [hText, jsonEntry_eq]
  simp only [List.append_assoc, List.cons_append]
  exact ⟨_, rfl⟩

/-- A table that exports something is a list with its entries. -/
theorem json_of_exported {t : SymbolTable} {symbol : Symbol} {others : List Symbol}
    (h : t.exported = symbol :: others) :
    t.json = '[' :: '\n' :: entriesText (symbol :: others) := by
  unfold json
  rw [h]
  simp only [entriesText, List.cons_append, List.nil_append]

/-- The value at the start of the written form of a table has the symbols of the table, in their
order, and nothing follows it. -/
theorem decodeValue_json (t : SymbolTable) :
    Json.decodeValue (2 * t.json.length + 2) t.json =
      .ok (.list (t.userSymbols.map symbolValue), []) := by
  have hSymbols : t.userSymbols.map symbolValue =
      t.exported.map fun symbol => symbolValue (symbol.name, symbol.value) := by
    rw [exported, List.map_map]
    rfl
  rw [hSymbols]
  cases hExported : t.exported with
  | nil =>
      have hText : t.json = ['[', ']'] := by
        unfold json
        rw [hExported]
      rw [hText]
      rfl
  | cons symbol others =>
      have hLength := length_le_entriesText symbol others
      obtain ⟨rest, hFirst⟩ := exists_skipSpace_entriesText symbol others
      obtain ⟨rounds, hRounds⟩ : ∃ rounds,
          2 * t.json.length + 2 = (rounds + others.length + 3) + 3 := by
        refine ⟨2 * t.json.length - others.length - 4, ?_⟩
        rw [json_of_exported hExported, List.length_cons, List.length_cons]
        omega
      rw [hRounds, json_of_exported hExported,
        Json.decodeValue_list rfl hFirst (by decide), decodeElements_entriesText]
      rfl

/-- After any definitions, the written form of the table is a JSON text, as strict as settings are
read, and it spells a list of objects with the symbols of the program in their order. Names may have
any characters. -/
theorem exported_symbols_read_back (calls : List (Text × Nat)) :
    Json.skipValue (initial.defineAll calls).json = .ok [] ∧
      Json.decode (initial.defineAll calls).json =
        .ok (.list ((initial.defineAll calls).userSymbols.map symbolValue)) := by
  have hValue := decodeValue_json (initial.defineAll calls)
  refine ⟨(Json.skips _).value hValue, ?_⟩
  rw [Json.decode, hValue]
  rfl

example : (initial.define ['"', '\\', '\x1f', '\u2028'] 65543).json =
    "[\n  \x7b\n    \"name\": \"\\\"\\\\\\u001f\u2028\",\n    \"value\": 7\n  \x7d\n]".toList := by
  decide +kernel

end TwoPass.SymbolTable
