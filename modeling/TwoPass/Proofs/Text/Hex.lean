import TwoPass.Text.Hex

namespace TwoPass.Text

/-- The sixteen digits in the order of their values. -/
def hexDigits : Text := "0123456789abcdef".toList

/-- The number that hexadecimal digits spell, of which the first counts most. -/
def hexNumber (digits : Text) : Nat := digits.foldl (fun n c => n * 16 + hexDigits.idxOf c) 0

/-- Exactly four digits. -/
def IsHexWord (token : Text) : Prop := token.length = 4 ∧ ∀ c ∈ token, c ∈ hexDigits

/-- Words with a space behind each of them. -/
def spacedWords (words : List UInt16) : Text := words.flatMap fun word => hex4 word ++ [' ']

theorem hexDigit_mod (n : Nat) : hexDigit (n % 16) = hexDigit n := by simp [hexDigit]

/-- Digits come from the table, in lower case. -/
theorem hexDigit_mem_hexDigits (n : Nat) : hexDigit n ∈ hexDigits := by
  have hDigits : ∀ d < 16, hexDigit d ∈ hexDigits := by decide
  rw [← hexDigit_mod]
  exact hDigits (n % 16) (Nat.mod_lt n (by decide))

/-- The place of a digit in the table is its value. -/
theorem idxOf_hexDigit (n : Nat) : hexDigits.idxOf (hexDigit n) = n % 16 := by
  have hDigits : ∀ d < 16, hexDigits.idxOf (hexDigit d) = d := by decide
  rw [← hexDigit_mod]
  exact hDigits (n % 16) (Nat.mod_lt n (by decide))

/-- A word is written as a word is to be. -/
theorem isHexWord_hex4 (word : UInt16) : IsHexWord (hex4 word) := by
  refine ⟨length_hex4 word, ?_⟩
  simp [hex4, hexDigit_mem_hexDigits]

/-- Reading the four digits gives the word back. -/
theorem hexNumber_hex4 (word : UInt16) : hexNumber (hex4 word) = word.toNat := by
  have hWord : word.toNat < 65536 := word.toNat_lt
  simp only [hexNumber, hex4, List.foldl_cons, List.foldl_nil, idxOf_hexDigit]
  omega

/-- No two words are written alike. -/
theorem hex4_inj {word other : UInt16} : hex4 word = hex4 other ↔ word = other := by
  constructor
  · intro h
    rw [← UInt16.toNat_inj, ← hexNumber_hex4, h, hexNumber_hex4]
  · rintro rfl
    rfl

/-- Nothing but digits is written. -/
theorem not_mem_hex4 {c : Char} (h : c ∉ hexDigits) (word : UInt16) : c ∉ hex4 word :=
  fun hMem => h ((isHexWord_hex4 word).2 c hMem)

/-- Each word comes with the space behind it. -/
theorem spacedWords_cons (word : UInt16) (words : List UInt16) :
    spacedWords (word :: words) = hex4 word ++ ' ' :: spacedWords words := by
  simp [spacedWords]

/-- With one more space at the end, every word has one. -/
theorem hexWords_append_space {words : List UInt16} (h : words ≠ []) :
    hexWords words ++ [' '] = spacedWords words := by
  induction words with
  | nil => exact absurd rfl h
  | cons word rest ih =>
      cases rest with
      | nil => simp [hexWords, spacedWords]
      | cons next rest =>
          rw [spacedWords_cons, ← ih (by simp), hexWords, List.map_cons, List.map_cons,
            List.intercalate_cons_cons]
          simp [hexWords]

/-- Where a row ends does not show in the words. -/
theorem spacedWords_flatten (rows : List (List UInt16)) :
    spacedWords rows.flatten = rows.flatMap spacedWords := by
  rw [← List.flatMap_id, spacedWords, List.flatMap_assoc]
  rfl

/-- Nothing but digits and spaces is written. -/
theorem not_mem_hexWords {c : Char} (hDigit : c ∉ hexDigits) (hSpace : c ≠ ' ')
    (words : List UInt16) : c ∉ hexWords words := by
  by_cases h : words = []
  · simp [h, hexWords]
  · intro hMem
    have hSpaced : c ∈ spacedWords words := by
      rw [← hexWords_append_space h]
      exact List.mem_append_left _ hMem
    simp [spacedWords, not_mem_hex4 hDigit, hSpace] at hSpaced

/-- A list of words ends at the first space that stands where a digit could. -/
theorem eq_of_spacedWords_append {words others : List UInt16} {rest more : Text}
    (h : spacedWords words ++ ' ' :: rest = spacedWords others ++ ' ' :: more) :
    words = others := by
  have hStart : ∀ {word : UInt16} {tail rest : Text}, hex4 word ++ tail ≠ ' ' :: rest := by
    intro word tail rest hEq
    have hFirst : hexDigit (word.toNat / 0x1000) = ' ' := List.head_eq_of_cons_eq hEq
    have hMem := hexDigit_mem_hexDigits (word.toNat / 0x1000)
    rw [hFirst] at hMem
    exact absurd hMem (by decide)
  induction words generalizing others with
  | nil =>
      cases others with
      | nil => rfl
      | cons other others =>
          rw [spacedWords_cons, List.append_assoc] at h
          exact absurd h.symm hStart
  | cons word words ih =>
      cases others with
      | nil =>
          rw [spacedWords_cons, List.append_assoc] at h
          exact absurd h hStart
      | cons other others =>
          rw [spacedWords_cons, spacedWords_cons, List.append_assoc, List.append_assoc] at h
          obtain ⟨hWord, hRest⟩ := List.append_inj h (by rw [length_hex4, length_hex4])
          rw [hex4_inj.mp hWord, ih (List.tail_eq_of_cons_eq hRest)]

end TwoPass.Text
