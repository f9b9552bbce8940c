import TwoPass.Proofs.Instruction.Decoding
import TwoPass.StringData

/-! Bytes in words. Packing puts each two bytes in a word, and no bit is lost as long as they are
bytes: a character is cut down to its low eight bits before it is packed, wherever in Unicode it
lies. Only the parity of the number of bytes is lost, since a last byte alone gets a zero as its
partner. -/
namespace TwoPass.StringData

/-- The low byte of a word and then its high byte. -/
def unpack (word : UInt16) : List UInt16 := [word % 256, word / 256]

/-- The byte at an index, or zero where there is none. -/
def byteAt (bytes : List UInt16) (index : Nat) : Nat := (bytes.getD index 0).toNat

section Pair

variable {low high : UInt16}

/-- The low byte and the high byte do not overlap. -/
theorem toNat_pair (hLow : low < 256) (hHigh : high < 256) :
    (low ||| (high <<< 8)).toNat = low.toNat + 256 * high.toNat := by
  have hLow : low.toNat < 256 := UInt16.lt_iff_toNat_lt.mp hLow
  have hHigh : high.toNat < 256 := UInt16.lt_iff_toNat_lt.mp hHigh
  have hShift : (high <<< 8).toNat = high.toNat * 2 ^ 8 :=
    Instruction.toNat_shiftLeft_of_lt (by decide) (by change _ * 2 ^ 8 < _; omega)
  rw [UInt16.toNat_or, hShift, Nat.or_comm, Instruction.mul_two_pow_or 8 hLow]
  omega

/-- Two bytes come back from their word. -/
theorem unpack_pair (hLow : low < 256) (hHigh : high < 256) :
    unpack (low ||| (high <<< 8)) = [low, high] := by
  have hSum := toNat_pair hLow hHigh
  have hBound : low.toNat < 256 := UInt16.lt_iff_toNat_lt.mp hLow
  have hFirst : (low ||| (high <<< 8)) % 256 = low := by
    rw [← UInt16.toNat_inj, UInt16.toNat_mod, hSum]
    change (low.toNat + 256 * high.toNat) % 256 = low.toNat
    omega
  have hSecond : (low ||| (high <<< 8)) / 256 = high := by
    rw [← UInt16.toNat_inj, UInt16.toNat_div, hSum]
    change (low.toNat + 256 * high.toNat) / 256 = high.toNat
    omega
  rw [unpack, hFirst, hSecond]

/-- A byte without a partner comes back with a zero. -/
theorem unpack_of_lt (h : low < 256) : unpack low = [low, 0] := by
  have hPair := unpack_pair h (show (0 : UInt16) < 256 by decide)
  rwa [UInt16.zero_shiftLeft, UInt16.or_zero] at hPair

end Pair

section Pack

variable {bytes : List UInt16}

/-- There is a word for every two bytes, and one for a last single byte. -/
theorem length_pack (bytes : List UInt16) : (pack bytes).length = (bytes.length + 1) / 2 := by
  fun_induction pack bytes with
  | case1 => rfl
  | case2 low => simp
  | case3 low high rest ih =>
      rw [List.length_cons, ih, List.length_cons, List.length_cons]
      omega

/-- All bytes come back, in order. -/
theorem flatMap_unpack_pack (h : ∀ byte ∈ bytes, byte < 256) :
    (pack bytes).flatMap unpack = bytes ++ if Odd bytes.length then [0] else [] := by
  fun_induction pack bytes with
  | case1 => rfl
  | case2 low => exact unpack_of_lt (h low (by simp))
  | case3 low high rest ih =>
      have hRest := ih fun byte hMem => h byte (by simp [hMem])
      have hParity : Odd (low :: high :: rest).length ↔ Odd rest.length := by
        simp [Nat.odd_add_one]
      rw [List.flatMap_cons, hRest, unpack_pair (h low (by simp)) (h high (by simp))]
      simp only [hParity]
      rfl

/-- Each word holds the bytes at an even index and at the next one. -/
theorem map_toNat_pack (h : ∀ byte ∈ bytes, byte < 256) :
    (pack bytes).map UInt16.toNat =
      (List.range ((bytes.length + 1) / 2)).map fun index =>
        byteAt bytes (2 * index) + 256 * byteAt bytes (2 * index + 1) := by
  fun_induction pack bytes with
  | case1 => rfl
  | case2 low => simp [byteAt]
  | case3 low high rest ih =>
      have hRest := ih fun byte hMem => h byte (by simp [hMem])
      have hCount : ((low :: high :: rest).length + 1) / 2 = (rest.length + 1) / 2 + 1 := by
        rw [List.length_cons, List.length_cons]
        omega
      rw [List.map_cons, hRest, toNat_pair (h low (by simp)) (h high (by simp)), hCount,
        List.range_succ_eq_map, List.map_cons, List.map_map]
      rfl

end Pack

theorem toNat_lowByte (c : Char) : (UInt16.ofNat (c.toNat % 256)).toNat = c.toNat % 256 :=
  UInt16.toNat_ofNat_of_lt ((Nat.mod_lt _ (by decide)).trans (show 256 < 65536 by decide))

section Operand

variable (operand : Text)

/-- A string is made of bytes. -/
theorem lt_of_mem_plain : ∀ byte ∈ plain operand, byte < 256 := by
  intro byte hMem
  rcases List.mem_append.mp hMem with hCharacter | hZero
  · obtain ⟨c, -, rfl⟩ := List.mem_map.mp hCharacter
    rw [UInt16.lt_iff_toNat_lt, toNat_lowByte]
    exact Nat.mod_lt _ (by decide)
  · rw [List.mem_singleton] at hZero
    rw [hZero]
    decide

/-- It ends with a zero byte. -/
theorem getLast?_plain : (plain operand).getLast? = some 0 := by
  rw [plain, List.getLast?_concat]

/-- The packed form of a string is the plain form, two bytes to a word. Taken apart again it gives
the plain form and, if that has an odd number of words, one zero more. So it has half as many words,
rounded up, and both forms end with a zero. -/
theorem packed_strings_unpack :
    (packed operand).flatMap unpack =
      plain operand ++ (if Odd (plain operand).length then [0] else []) ∧
    (∀ byte ∈ plain operand, byte < 256) ∧
    (plain operand).getLast? = some 0 ∧
    ((packed operand).flatMap unpack).getLast? = some 0 ∧
    (packed operand).length = ((plain operand).length + 1) / 2 := by
  have hBytes := lt_of_mem_plain operand
  have hUnpack := flatMap_unpack_pack hBytes
  have hLast := getLast?_plain operand
  refine ⟨hUnpack, hBytes, hLast, ?_, length_pack _⟩
  rw [packed, hUnpack]
  split
  · rw [List.getLast?_concat]
  · rw [List.append_nil, hLast]

end Operand

end TwoPass.StringData
