import Mathlib.Algebra.Order.Floor.Div
import TwoPass.Image.HexText
import TwoPass.Proofs.Text.Hex
import TwoPass.Proofs.Text.Lines

namespace TwoPass

namespace Text

/-- The tokens of a text, line by line. What follows the last line feed is left out. -/
def tokenRows (text : Text) : List (List Text) :=
  (text.splitOn '\n').dropLast.map (·.splitOn ' ')

/-- Tokens with a space between neighbours, line by line. -/
def rowsText (rows : List (List Text)) : Text := unlines (rows.map ([' '].intercalate ·))

/-- A text with spaces in place of its line feeds. -/
def onOneLine (text : Text) : Text := text.map fun c => if c = '\n' then ' ' else c

/-- Texts without line feeds come back from their lines, with an empty one behind the last feed. -/
theorem splitOn_unlines {texts : List Text} (h : ∀ text ∈ texts, '\n' ∉ text) :
    (unlines texts).splitOn '\n' = texts ++ [[]] := by
  induction texts with
  | nil => rfl
  | cons text rest ih =>
      have hText : text.splitOn '\n' = [text] := List.splitOn_eq_singleton (h text (by simp))
      rw [unlines_cons, List.splitOn_append_cons_self, hText,
        ih fun other hMem => h other (by simp [hMem])]
      rfl

/-- Rows come back if no token can be mistaken for two and no line for a line without a token. -/
theorem tokenRows_rowsText {rows : List (List Text)} (hRows : ∀ row ∈ rows, row ≠ [])
    (hFeed : ∀ row ∈ rows, '\n' ∉ [' '].intercalate row)
    (hSpace : ∀ row ∈ rows, ∀ token ∈ row, ' ' ∉ token) : tokenRows (rowsText rows) = rows := by
  have hLines : ∀ line ∈ rows.map ([' '].intercalate ·), '\n' ∉ line := by
    intro line hMem
    obtain ⟨row, hRow, rfl⟩ := List.mem_map.mp hMem
    exact hFeed row hRow
  rw [tokenRows, rowsText, splitOn_unlines hLines, List.dropLast_concat, List.map_map]
  calc rows.map ((·.splitOn ' ') ∘ ([' '].intercalate ·))
      = rows.map id := List.map_congr_left fun row hRow =>
          List.splitOn_intercalate ' ' (hSpace row hRow) (hRows row hRow)
    _ = rows := List.map_id rows

end Text

namespace Image

variable (image : Image) {width index : Nat}

/-- A row is a piece of the words. -/
theorem row_eq (width index : Nat) :
    image.row width index = (image.words.drop (index * width)).take width := by
  rw [row, words, Array.toList_extract, List.extract_eq_take_drop, List.map_take, List.map_drop,
    Nat.add_sub_cancel_left]
  rfl

/-- All rows are full, up to the last one. -/
theorem length_row (width index : Nat) :
    (image.row width index).length = min width (65536 - index * width) := by
  rw [row_eq, List.length_take, List.length_drop, length_words]

/-- The first lines hold the first words, as many as fit. -/
theorem flatten_rows_upTo (width count : Nat) :
    ((List.range count).map (image.row width)).flatten = image.words.take (count * width) := by
  induction count with
  | zero => simp
  | succ count ih =>
      rw [List.range_succ, List.map_append, List.flatten_append, ih, Nat.succ_mul, List.take_add,
        ← row_eq]
      simp

/-- The lines reach to the end of the memory, and all but the last one end before it. -/
theorem rowCount_bounds (h : 0 < width) :
    65536 ≤ rowCount width * width ∧ (rowCount width - 1) * width < 65536 := by
  have hLow : rowCount width * width ≤ 65536 + width - 1 := Nat.div_mul_le_self _ width
  have hHigh : 65536 + width - 1 < rowCount width * width + width :=
    Nat.lt_div_mul_add h
  have hPrevious : (rowCount width - 1) * width = rowCount width * width - width := Nat.pred_mul ..
  omega

theorem rows_eq (width : Nat) :
    image.rows width = (List.range (rowCount (max width 1))).map (image.row (max width 1)) := rfl

/-- There are as many rows as it takes to hold all words. -/
theorem length_rows (width : Nat) : (image.rows width).length = 65536 ⌈/⌉ max width 1 := by
  rw [rows_eq, List.length_map, List.length_range]
  rfl

/-- The rows hold all words in order. -/
theorem flatten_rows (width : Nat) : (image.rows width).flatten = image.words := by
  have hWidth : 0 < max width 1 := by omega
  rw [rows_eq, flatten_rows_upTo, List.take_of_length_le]
  rw [length_words]
  exact (rowCount_bounds hWidth).1

/-- No row is empty or too long. -/
theorem length_of_mem_rows {row : List UInt16} (h : row ∈ image.rows width) :
    0 < row.length ∧ row.length ≤ max width 1 := by
  have hWidth : 0 < max width 1 := by omega
  rw [rows_eq] at h
  obtain ⟨index, hIndex, rfl⟩ := List.mem_map.mp h
  rw [List.mem_range] at hIndex
  have hStart : index * max width 1 ≤ (rowCount (max width 1) - 1) * max width 1 :=
    Nat.mul_le_mul_right _ (by omega)
  have hEnd := (rowCount_bounds hWidth).2
  rw [length_row]
  omega

theorem ne_nil_of_mem_rows {row : List UInt16} (h : row ∈ image.rows width) : row ≠ [] :=
  List.length_pos_iff.mp (image.length_of_mem_rows h).1

/-- A line with another one behind it is full, because that one starts inside the memory. -/
theorem length_of_mem_dropLast_rows {row : List UInt16} (h : row ∈ (image.rows width).dropLast) :
    row.length = max width 1 := by
  have hWidth : 0 < max width 1 := by omega
  rw [rows_eq, List.dropLast_eq_take, List.length_map, List.length_range, ← List.map_take,
    List.take_range] at h
  obtain ⟨index, hIndex, rfl⟩ := List.mem_map.mp h
  rw [List.mem_range] at hIndex
  have hNext : (index + 1) * max width 1 ≤ (rowCount (max width 1) - 1) * max width 1 :=
    Nat.mul_le_mul_right _ (by omega)
  have hEnd := (rowCount_bounds hWidth).2
  rw [Nat.succ_mul] at hNext
  rw [length_row]
  omega

theorem rows_ne_nil (width : Nat) : image.rows width ≠ [] := by
  intro hNone
  have hWords := image.length_words
  rw [← image.flatten_rows width, hNone] at hWords
  cases hWords

/-- The text is made of rows of four digits each. -/
theorem hexText_eq (width : Nat) :
    image.hexText width = Text.rowsText ((image.rows width).map (·.map Text.hex4)) := by
  simp [hexText, Text.rowsText, Text.unlines, List.flatMap_map, Text.hexWords]

/-- Without its line ends, the text is the same for all widths. -/
theorem onOneLine_hexText (width : Nat) :
    Text.onOneLine (image.hexText width) = Text.spacedWords image.words := by
  have hRow : ∀ row ∈ image.rows width,
      Text.onOneLine (Text.hexWords row ++ ['\n']) = Text.spacedWords row := by
    intro row hMem
    have hFeed : '\n' ∉ Text.hexWords row := Text.not_mem_hexWords (by decide) (by decide) row
    have hWords : Text.onOneLine (Text.hexWords row) = Text.hexWords row :=
      (List.map_congr_left fun c hc => if_neg (ne_of_mem_of_not_mem hc hFeed)).trans
        (List.map_id _)
    rw [Text.onOneLine, List.map_append, ← Text.onOneLine, hWords,
      ← Text.hexWords_append_space (image.ne_nil_of_mem_rows hMem)]
    rfl
  rw [hexText, Text.onOneLine, List.map_flatMap, ← image.flatten_rows width,
    Text.spacedWords_flatten]
  exact List.flatMap_congr hRow

/-- Tokens and rows are read back from the text. -/
theorem tokenRows_hexText (width : Nat) :
    Text.tokenRows (image.hexText width) = (image.rows width).map (·.map Text.hex4) := by
  rw [hexText_eq]
  apply Text.tokenRows_rowsText
  all_goals
    intro row hMem
    obtain ⟨words, hWords, rfl⟩ := List.mem_map.mp hMem
  · simpa using image.ne_nil_of_mem_rows hWords
  · exact Text.not_mem_hexWords (by decide) (by decide) words
  · intro token hToken
    obtain ⟨word, -, rfl⟩ := List.mem_map.mp hToken
    exact Text.not_mem_hex4 (by decide) word

/-- What a reader of an image text finds in it. -/
structure ReadsBack (image : Image) (width : Nat) (text : Text) : Prop where
  /-- All of the text is tokens with a space between neighbours, and a line feed ends each line. -/
  lines : Text.rowsText (Text.tokenRows text) = text
  count : (Text.tokenRows text).length = 65536 ⌈/⌉ max width 1
  full : ∀ row ∈ (Text.tokenRows text).dropLast, row.length = max width 1
  last : ∃ row, (Text.tokenRows text).getLast? = some row ∧ 0 < row.length ∧
    row.length ≤ max width 1
  tokens : ∀ row ∈ Text.tokenRows text, ∀ token ∈ row, Text.IsHexWord token
  words : (Text.tokenRows text).flatten.map Text.hexNumber = image.words.map UInt16.toNat

/-- The text is read back line by line, word by word and as a whole. -/
theorem readsBack_hexText (width : Nat) : image.ReadsBack width (image.hexText width) where
  lines := by rw [tokenRows_hexText, ← hexText_eq]
  count := by rw [tokenRows_hexText, List.length_map, length_rows]
  full := by
    rw [tokenRows_hexText, ← List.map_dropLast]
    intro row hMem
    obtain ⟨words, hWords, rfl⟩ := List.mem_map.mp hMem
    rw [List.length_map, image.length_of_mem_dropLast_rows hWords]
  last := by
    have hSome := image.rows_ne_nil width
    have hLength := image.length_of_mem_rows (List.getLast_mem hSome)
    refine ⟨((image.rows width).getLast hSome).map Text.hex4, ?_, by simpa using hLength⟩
    rw [tokenRows_hexText, List.getLast?_map, List.getLast?_eq_some_getLast hSome]
    rfl
  tokens := by
    rw [tokenRows_hexText]
    intro row hMem token hToken
    obtain ⟨words, -, rfl⟩ := List.mem_map.mp hMem
    obtain ⟨word, -, rfl⟩ := List.mem_map.mp hToken
    exact Text.isHexWord_hex4 word
  words := by
    rw [tokenRows_hexText, ← List.map_flatten, flatten_rows, List.map_map]
    apply List.map_congr_left
    intro word _
    rw [Function.comp_apply, Text.hexNumber_hex4]

/-- An image text can be read back at any width, and two widths put line ends in different places
only: the texts have the same digits and gaps at the same places. -/
theorem hex_texts_read_back (image : Image) (width : Nat) :
    image.ReadsBack width (image.hexText width) ∧
      ∀ other, Text.onOneLine (image.hexText width) = Text.onOneLine (image.hexText other) := by
  refine ⟨image.readsBack_hexText width, fun other => ?_⟩
  rw [onOneLine_hexText, onOneLine_hexText]

end Image

end TwoPass
