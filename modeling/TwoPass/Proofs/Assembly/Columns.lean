import TwoPass.Assembly.Listing
import TwoPass.Proofs.Text.Hex

/-! The columns of a listing line. The word column has no fixed width, because more than four words
reach beyond its twenty characters, and the text behind it is free to look like words or padding.
The columns can be told apart nevertheless: after each word but the last one a single space is
followed by a digit, and after the last one by another space. -/
namespace TwoPass.Listing

/-- Whatever the width of the word column is, its words have a space behind each of them, and one
more follows. -/
theorem exists_format_eq (address : Nat) (words : List UInt16) (text : Text) :
    ∃ rest, format address words text =
      Text.hex4 (UInt16.ofNat address) ++
        ' ' :: ' ' :: (Text.spacedWords words ++ ' ' :: rest) := by
  cases words with
  | nil => exact ⟨List.replicate 19 ' ' ++ ' ' :: ' ' :: Text.trimEnd text, rfl⟩
  | cons word words =>
      -- At least two spaces follow the last word: one ends the word, and one is left over.
      have hGap : ∀ (k : Nat) (t : Text),
          List.replicate k ' ' ++ ' ' :: t = ' ' :: (List.replicate k ' ' ++ t) := by
        intro k t
        induction k with
        | zero => rfl
        | succ k ih => rw [List.replicate_succ, List.cons_append, ih, List.cons_append]
      have hWords := Text.hexWords_append_space (List.cons_ne_nil word words)
      refine ⟨List.replicate (20 - (Text.hexWords (word :: words)).length) ' ' ++
        Text.trimEnd text, ?_⟩
      rw [← hWords, format, List.rightpad]
      simp only [List.append_assoc, List.cons_append, List.nil_append, hGap]

theorem words_eq_of_format_eq {address other : Nat} {words others : List UInt16}
    {text another : Text}
    (h : format address words text = format other others another) :
    UInt16.ofNat address = UInt16.ofNat other ∧ words = others := by
  obtain ⟨rest, hLine⟩ := exists_format_eq address words text
  obtain ⟨more, hOther⟩ := exists_format_eq other others another
  rw [hLine, hOther] at h
  obtain ⟨hAddress, hRest⟩ := List.append_inj h (by rw [Text.length_hex4, Text.length_hex4])
  exact ⟨Text.hex4_inj.mp hAddress,
    Text.eq_of_spacedWords_append (List.tail_eq_of_cons_eq (List.tail_eq_of_cons_eq hRest))⟩

/-- Two lines are the same exactly if they have the same address, up to the top of the memory, the
same words and the same text, up to blanks at its end. -/
theorem listing_lines_unambiguous (address other : Nat) (words others : List UInt16)
    (text another : Text) :
    format address words text = format other others another ↔
      address % 65536 = other % 65536 ∧ words = others ∧
        Text.trimEnd text = Text.trimEnd another := by
  have hCell : UInt16.ofNat address = UInt16.ofNat other ↔ address % 65536 = other % 65536 := by
    rw [← UInt16.toNat_inj, UInt16.toNat_ofNat', UInt16.toNat_ofNat']
  constructor
  · intro h
    obtain ⟨hAddress, rfl⟩ := words_eq_of_format_eq h
    -- Everything in front of the text is now the same on both sides.
    rw [format, format, hAddress] at h
    exact ⟨hCell.mp hAddress, rfl, List.append_cancel_left h⟩
  · rintro ⟨hAddress, rfl, hText⟩
    rw [format, format, hCell.mpr hAddress, hText]

example : format 0 [1, 1, 1, 1] "0001  WORD".toList ≠ format 0 [1, 1, 1, 1, 1] "WORD".toList := by
  decide

end TwoPass.Listing
