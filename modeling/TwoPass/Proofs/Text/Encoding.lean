import Mathlib.Data.String.Basic
import TwoPass.Text.Basic

namespace TwoPass.Text

/-- The size counts the bytes. -/
theorem length_utf8 (s : Text) : (utf8 s).length = utf8Size s := by
  induction s with
  | nil => rfl
  | cons c s ih =>
      rw [utf8, List.flatMap_cons, List.length_append, String.length_utf8EncodeChar, utf8Size_cons]
      exact congrArg _ ih

theorem utf8Len_eq (s : Text) : String.utf8Len s = utf8Size s := by
  induction s with
  | nil => rfl
  | cons c s ih => rw [String.utf8Len_cons, utf8Size_cons, ih, Nat.add_comm]

/-- Strings count their bytes in the same way. -/
theorem utf8ByteSize_ofList (s : Text) : (String.ofList s).utf8ByteSize = utf8Size s := by
  rw [String.utf8ByteSize_ofList, utf8Len_eq]

/-- In front of what follows a text, there is a character boundary. -/
theorem isValid_append (front rest : Text) :
    String.Pos.Raw.IsValid (String.ofList (front ++ rest)) ⟨utf8Size front⟩ := by
  rw [String.Pos.Raw.isValid_iff_exists_append]
  refine ⟨String.ofList front, String.ofList rest, String.ofList_append, ?_⟩
  rw [String.rawEndPos, utf8ByteSize_ofList]

/-- The character behind that boundary is the one that follows. -/
theorem get_append (front : Text) (c : Char) (rest : Text) :
    String.Pos.Raw.get (String.ofList (front ++ c :: rest)) ⟨utf8Size front⟩ = c := by
  rw [← utf8Len_eq, String.get_of_valid]
  rfl

/-- The characters of ASCII have one byte each. -/
theorem utf8Size_of_ascii {s : Text} (h : ∀ c ∈ s, c.val ≤ 127) : utf8Size s = s.length := by
  induction s with
  | nil => rfl
  | cons c s ih =>
      have hFirst := Char.utf8Size_eq_one_iff.mpr (h c List.mem_cons_self)
      have hOthers := ih fun other hOther => h other (List.mem_cons_of_mem _ hOther)
      rw [utf8Size_cons, hFirst, hOthers, List.length_cons, Nat.add_comm]

/-- The character that the first byte of a character is in ASCII. -/
def lead (c : Char) : Char := .ofUInt8 ((String.utf8EncodeChar c).headD 0)

/-- The bytes of a character are its first one and others, and in ASCII there are no others. -/
theorem exists_utf8_cons (c : Char) (s : Text) :
    ∃ byte others, utf8 (c :: s) = byte :: (others ++ utf8 s) ∧ Char.ofUInt8 byte = lead c ∧
      (c.val ≤ 127 → others = []) := by
  have hLength := String.length_utf8EncodeChar c
  cases hBytes : String.utf8EncodeChar c with
  | nil =>
      rw [hBytes] at hLength
      exact absurd hLength.symm c.utf8Size_pos.ne'
  | cons byte others =>
      rw [hBytes] at hLength
      refine ⟨byte, others, ?_, ?_, ?_⟩
      · rw [utf8, List.flatMap_cons, hBytes]
        rfl
      · rw [lead, hBytes]
        rfl
      · intro hAscii
        rw [Char.utf8Size_eq_one_iff.mpr hAscii] at hLength
        exact List.length_eq_zero_iff.mp (Nat.succ.inj hLength)

/-- In ASCII a character is its byte. -/
theorem lead_of_ascii {c : Char} (h : c.val ≤ 127) : lead c = c := by
  have hSize : c.utf8Size = 1 := Char.utf8Size_eq_one_iff.mpr h
  rw [lead, String.utf8EncodeChar_eq_singleton hSize]
  apply Char.ext
  apply UInt32.toNat.inj
  rw [UInt32.le_iff_toNat_le] at h
  change c.val.toNat % 256 = c.val.toNat
  exact Nat.mod_eq_of_lt (Nat.lt_of_le_of_lt h (by decide))

/-- The first byte of a longer character counts at least 192. -/
theorem lead_of_wide {c : Char} (h : ¬ c.val ≤ 127) : ¬ (lead c).val ≤ 127 := by
  have hWide : ¬ c.val.toNat ≤ 127 := by rwa [UInt32.le_iff_toNat_le] at h
  have hFirst : 192 ≤ ((String.utf8EncodeChar c).headD 0).toNat := by
    unfold String.utf8EncodeChar
    simp only [hWide, if_false]
    repeat' split
    all_goals simp only [List.headD_cons, UInt8.toNat_ofNat']
    all_goals omega
  rw [UInt32.le_iff_toNat_le]
  change ¬ ((String.utf8EncodeChar c).headD 0).toNat ≤ 127
  omega

/-- Nothing but characters of one byte fits. -/
def OnlyAscii (fits : Char → Bool) : Prop := ∀ c, fits c = true → c.val ≤ 127

/-- What fits no longer character does not fit the first byte of one either. -/
theorem OnlyAscii.lead {fits : Char → Bool} (h : OnlyAscii fits) (c : Char) :
    fits (lead c) = fits c := by
  by_cases hAscii : c.val ≤ 127
  · rw [lead_of_ascii hAscii]
  · have hLead : fits (Text.lead c) ≠ true := fun hFits => lead_of_wide hAscii (h _ hFits)
    have hChar : fits c ≠ true := fun hFits => hAscii (h c hFits)
    rw [Bool.eq_false_iff.mpr hLead, Bool.eq_false_iff.mpr hChar]

/-- A byte is a mark of ASCII only where that mark stands. -/
theorem lead_eq_iff {c mark : Char} (hMark : mark.val ≤ 127) : lead c = mark ↔ c = mark := by
  have hAscii : OnlyAscii (· == mark) := by
    intro d hd
    rwa [beq_iff_eq.mp hd]
  have hLead := hAscii.lead c
  rw [Bool.eq_iff_iff, beq_iff_eq, beq_iff_eq] at hLead
  exact hLead

end TwoPass.Text
