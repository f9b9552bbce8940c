import Mathlib.Data.Nat.Bitwise
import TwoPass.Instruction

/-! Instructions read back from their words. The fields of an instruction word do not overlap,
whatever the operands are, and the flag for an immediate tells where the next instruction starts.
Hence a stream of instructions can be read in one way only. -/
namespace TwoPass

/-- The predicate that three bits stand for. -/
def Predicate.ofCode : Nat → Predicate
  | 0 => .always
  | 1 => .never
  | 2 => .zero
  | 3 => .notZero
  | 4 => .carry
  | 5 => .notCarry
  | 6 => .negative
  | _ => .positive

/-- No two predicates share a code. -/
theorem Predicate.ofCode_code (p : Predicate) : ofCode p.code.toNat = p := by
  cases p <;> rfl

/-- A code has three bits. -/
theorem Predicate.code_lt (p : Predicate) : p.code.toNat < 8 := by
  cases p <;> decide

/-- Only an immediate takes a word of its own. -/
theorem Operands.encodedLength_eq {α : Type} (operands : Operands α) :
    operands.encodedLength = if operands.count = 3 then 2 else 1 := by
  cases operands <;> rfl

namespace Instruction

/-- The number in so many bits of a word, from a bit on. -/
def bits (w : UInt16) (start width : Nat) : Nat := w.toNat / 2 ^ start % 2 ^ width

/-- What the words of an instruction say about it. -/
structure Fields where
  predicate : Predicate
  opcode : Nat
  source : Nat
  destination : Nat
  immediate? : Option UInt16
  deriving DecidableEq, Repr

/-- The fields of an instruction word, with the immediate that follows it, if one does. -/
def fieldsOf (w : UInt16) (immediate? : Option UInt16) : Fields where
  predicate := .ofCode (bits w 13 3)
  opcode := bits w 8 4
  source := bits w 4 4
  destination := bits w 0 4
  immediate? := immediate?

/-- Reads instructions from words, up to the last word. Nothing is read from words that end where an
immediate should follow. -/
def decode : List UInt16 → Option (List Fields)
  | [] => some []
  | w :: rest =>
    if bits w 12 1 = 1 then
      match rest with
      | [] => none
      | immediate :: rest => (decode rest).map (fieldsOf w (some immediate) :: ·)
    else (decode rest).map (fieldsOf w none :: ·)

/-- An instruction whose operands have been evaluated. -/
structure Evaluated where
  predicate : Predicate
  slot : Fin 32
  operands : Operands UInt16

def Evaluated.words (i : Evaluated) : List UInt16 := encode i.predicate i.slot i.operands

/-- What is left of an instruction in its words: four bits of the slot and of each register. -/
def Evaluated.fields (i : Evaluated) : Fields where
  predicate := i.predicate
  opcode := i.slot.val % 16
  source := (i.operands.source?.getD 0).toNat % 16
  destination := i.operands.destination.toNat % 16
  immediate? := i.operands.immediate?

section Packing

/-- A field keeps four bits. -/
theorem toNat_field (w : UInt16) : (field w).toNat = w.toNat % 16 := by
  rw [field, UInt16.toNat_and]
  exact Nat.and_two_pow_sub_one_eq_mod w.toNat 4

/-- Shifting without loss multiplies. -/
theorem toNat_shiftLeft_of_lt {a shift : UInt16} (hShift : shift.toNat < 16)
    (h : a.toNat * 2 ^ shift.toNat < 2 ^ 16) : (a <<< shift).toNat = a.toNat * 2 ^ shift.toNat := by
  rw [UInt16.toNat_shiftLeft, Nat.mod_eq_of_lt hShift, Nat.shiftLeft_eq, Nat.mod_eq_of_lt h]

/-- A field that is moved into its place keeps its value there. -/
theorem toNat_field_shiftLeft {shift : UInt16} (hShift : shift.toNat ≤ 12) (w : UInt16) :
    (field w <<< shift).toNat = w.toNat % 16 * 2 ^ shift.toNat := by
  have hPower : 2 ^ shift.toNat ≤ 2 ^ 12 := Nat.pow_le_pow_right (by decide) hShift
  have hInside : w.toNat % 16 * 2 ^ shift.toNat < 2 ^ 16 :=
    calc w.toNat % 16 * 2 ^ shift.toNat ≤ 15 * 2 ^ 12 := Nat.mul_le_mul (by omega) hPower
      _ < 2 ^ 16 := by decide
  rw [← toNat_field] at hInside ⊢
  exact toNat_shiftLeft_of_lt (by omega) hInside

/-- Bits above and bits below do not disturb each other. -/
theorem mul_two_pow_or {high low : Nat} (start : Nat) (hLow : low < 2 ^ start) :
    high * 2 ^ start ||| low = high * 2 ^ start + low := by
  rw [← Nat.shiftLeft_eq, Nat.shiftLeft_add_eq_or_of_lt hLow]

/-- The flag is one bit, which tells whether a second word follows. -/
theorem toNat_immediateFlag (operands : Operands UInt16) :
    (immediateFlag operands).toNat = operands.immediate?.isSome.toNat * 2 ^ 12 := by
  rw [immediateFlag]
  cases operands.immediate?.isSome <;> rfl

/-- An instruction word as a sum of its fields. -/
theorem toNat_word (predicate : Predicate) (slot : Fin 32) (operands : Operands UInt16) :
    (word predicate slot operands).toNat =
      predicate.code.toNat * 2 ^ 13 + (operands.immediate?.isSome.toNat * 2 ^ 12 +
        (slot.val % 16 * 2 ^ 8 + ((operands.source?.getD 0).toNat % 16 * 2 ^ 4 +
          operands.destination.toNat % 16))) := by
  have hCode := predicate.code_lt
  have hFlag := operands.immediate?.isSome.toNat_le
  have hPredicate : (predicate.code <<< 13).toNat = predicate.code.toNat * 2 ^ 13 :=
    toNat_shiftLeft_of_lt (by decide) (by change _ * 2 ^ 13 < _; omega)
  have hSlot : (UInt16.ofNat slot.val).toNat = slot.val :=
    UInt16.toNat_ofNat_of_lt (slot.isLt.trans (by decide))
  have hOpcode : (field (UInt16.ofNat slot.val) <<< 8).toNat =
      (UInt16.ofNat slot.val).toNat % 16 * 2 ^ 8 := toNat_field_shiftLeft (by decide) _
  have hSource : (field (operands.source?.getD 0) <<< 4).toNat =
      (operands.source?.getD 0).toNat % 16 * 2 ^ 4 := toNat_field_shiftLeft (by decide) _
  simp only [word, UInt16.toNat_or, Nat.or_assoc, hPredicate, hOpcode, hSlot, hSource,
    toNat_field, toNat_immediateFlag]
  rw [mul_two_pow_or 4 (by omega), mul_two_pow_or 8 (by omega), mul_two_pow_or 12 (by omega),
    mul_two_pow_or 13 (by omega)]

end Packing

namespace Evaluated

variable (i : Evaluated)

theorem bits_flag :
    bits (word i.predicate i.slot i.operands) 12 1 = i.operands.immediate?.isSome.toNat := by
  have hFlag := i.operands.immediate?.isSome.toNat_le
  rw [bits, toNat_word]
  omega

/-- Each field is read back from its own bits. -/
theorem fieldsOf_word :
    fieldsOf (word i.predicate i.slot i.operands) i.operands.immediate? = i.fields := by
  have hCode := i.predicate.code_lt
  have hFlag := i.operands.immediate?.isSome.toNat_le
  have hPredicate : bits (word i.predicate i.slot i.operands) 13 3 = i.predicate.code.toNat := by
    rw [bits, toNat_word]
    omega
  simp only [fieldsOf, fields, hPredicate, Predicate.ofCode_code, Fields.mk.injEq, true_and,
    and_true]
  simp only [bits, toNat_word]
  omega

/-- The words of one instruction are read off the front, as far as they go. -/
theorem decode_words_append (rest : List UInt16) :
    decode (i.words ++ rest) = (decode rest).map (i.fields :: ·) := by
  have hFlag := i.bits_flag
  have hFields := i.fieldsOf_word
  rw [words, encode, List.cons_append, decode.eq_def]
  dsimp only
  rw [hFlag]
  cases hImmediate : i.operands.immediate? with
  | none =>
      rw [hImmediate] at hFields
      rw [if_neg (by decide), hFields]
      rfl
  | some immediate =>
      rw [hImmediate] at hFields
      rw [if_pos (by rfl)]
      simp only [Option.toList_some, List.singleton_append, hFields]

end Evaluated

/-- A stream of instructions is divided where they were joined, since the flag in each first word
tells its length. -/
theorem decode_stream (stream : List Evaluated) :
    decode (stream.flatMap Evaluated.words) = some (stream.map Evaluated.fields) := by
  induction stream with
  | nil => rfl
  | cons i rest ih =>
      rw [List.flatMap_cons, i.decode_words_append, ih]
      rfl

/-- Reading the words of any instructions one after another gives back their fields and leaves no
word over. So no other instructions, but for what the fields do not hold, have the same words. -/
theorem streams_decode_uniquely (stream : List Evaluated) :
    decode (stream.flatMap Evaluated.words) = some (stream.map Evaluated.fields) ∧
      (∀ other : List Evaluated, other.flatMap Evaluated.words = stream.flatMap Evaluated.words →
        other.map Evaluated.fields = stream.map Evaluated.fields) ∧
      ∀ i ∈ stream, i.words.length = i.operands.encodedLength ∧
        i.operands.encodedLength = if i.operands.count = 3 then 2 else 1 := by
  refine ⟨decode_stream stream, fun other hWords => ?_, fun i _ => ?_⟩
  · have hOther := decode_stream other
    rw [hWords, decode_stream stream] at hOther
    exact (Option.some.inj hOther).symm
  · exact ⟨length_encode .., i.operands.encodedLength_eq⟩

end Instruction

end TwoPass
