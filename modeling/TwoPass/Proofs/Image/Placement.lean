import Mathlib.Data.Finset.Card
import TwoPass.Image

/-! Writes seen as placements of single words. The address of a placement is taken modulo the
size of the memory, so a write that runs over the top goes on at the bottom, and a write longer
than the memory replaces its own words. -/
namespace TwoPass

/-- The words of a write with the cells that they go to, in the order of writing. -/
def placements (address : Nat) (words : List UInt16) : List (UInt16 × UInt16) :=
  words.mapIdx fun index word => (UInt16.ofNat (address + index), word)

/-- The last word placed in a cell. -/
def lastPlaced (target : UInt16) (placed : List (UInt16 × UInt16)) : Option UInt16 :=
  (placed.filter fun placement => placement.1 = target).getLast?.map Prod.snd

@[simp] theorem placements_nil (address : Nat) : placements address [] = [] := rfl

@[simp] theorem placements_cons (address : Nat) (word : UInt16) (rest : List UInt16) :
    placements address (word :: rest) =
      (UInt16.ofNat address, word) :: placements (address + 1) rest := by
  simp [placements, List.mapIdx_cons, Nat.add_assoc, Nat.add_comm 1]

@[simp] theorem lastPlaced_nil (target : UInt16) : lastPlaced target [] = none := rfl

/-- Later placements go first. -/
theorem lastPlaced_append (target : UInt16) (early late : List (UInt16 × UInt16)) :
    lastPlaced target (early ++ late) =
      (lastPlaced target late).or (lastPlaced target early) := by
  simp only [lastPlaced, List.filter_append, List.getLast?_append]
  cases (late.filter fun placement => placement.1 = target).getLast? <;> simp

theorem lastPlaced_singleton (target address word : UInt16) :
    lastPlaced target [(address, word)] = if address = target then some word else none := by
  by_cases h : address = target <;> simp [lastPlaced, h]

/-- Later placements go first. -/
theorem lastPlaced_cons (target address word : UInt16) (late : List (UInt16 × UInt16)) :
    lastPlaced target ((address, word) :: late) =
      (lastPlaced target late).or (if address = target then some word else none) := by
  rw [← lastPlaced_singleton, ← lastPlaced_append]
  rfl

namespace Image

/-- After a write, a cell holds the last word that was placed in it, if there is one. -/
theorem cell_write (image : Image) (address : Nat) (words : List UInt16) (target : UInt16) :
    (image.write address words).cell target =
      (lastPlaced target (placements address words)).or (image.cell target) := by
  induction words generalizing image address with
  | nil => simp
  | cons word rest ih =>
      rw [write_cons, ih, placements_cons, lastPlaced_cons, Option.or_assoc, cell_store]
      by_cases h : target = UInt16.ofNat address
      · simp [h]
      · simp [h, Ne.symm h]

/-- A store counts only if the cell was empty. -/
theorem used_store (image : Image) (address word : UInt16) :
    (image.store address word).used =
      image.used + if (image.cell address).isSome then 0 else 1 := by
  have hCount : (image.store address word).used =
      image.used - (if (image.cell address).isSome then 1 else 0) + 1 :=
    Vector.countP_set address.toNat_lt
  rw [hCount]
  by_cases h : (image.cell address).isSome = true
  · have hPositive : 0 < image.used :=
      Vector.countP_pos_iff.mpr ⟨_, Vector.getElem_mem address.toNat_lt, h⟩
    rw [if_pos h, if_pos h]
    omega
  · rw [if_neg h, if_neg h, Nat.sub_zero]

/-- The cells that have been written are those of a set, and `used` is its size. -/
structure Covers (image : Image) (written : Finset UInt16) : Prop where
  isSome_iff : ∀ address, (image.cell address).isSome = true ↔ address ∈ written
  used_eq : image.used = written.card

/-- An empty image uses nothing. -/
theorem covers_empty : empty.Covers ∅ := by
  refine ⟨by simp, ?_⟩
  simp [used, empty, Vector.countP_replicate]

/-- Storing uses its address. -/
theorem Covers.store {image : Image} {written : Finset UInt16} (h : image.Covers written)
    (address word : UInt16) : (image.store address word).Covers (insert address written) := by
  constructor
  · intro other
    rw [cell_store, Finset.mem_insert, ← h.isSome_iff]
    by_cases hOther : other = address <;> simp [hOther]
  · rw [used_store, h.used_eq]
    by_cases hMem : address ∈ written
    · rw [if_pos ((h.isSome_iff address).mpr hMem), Finset.insert_eq_of_mem hMem, Nat.add_zero]
    · rw [if_neg (mt (h.isSome_iff address).mp hMem), Finset.card_insert_of_notMem hMem]

/-- A write adds the cells of its placements. -/
theorem Covers.write {image : Image} {written : Finset UInt16} (h : image.Covers written)
    (address : Nat) (words : List UInt16) :
    (image.write address words).Covers
      (written ∪ ((placements address words).map Prod.fst).toFinset) := by
  induction words generalizing image address written with
  | nil => simpa using h
  | cons word rest ih =>
      have hRest := ih (h.store (UInt16.ofNat address) word) (address + 1)
      rw [write_cons, placements_cons, List.map_cons, List.toFinset_cons]
      rwa [Finset.union_insert, ← Finset.insert_union]

end Image

end TwoPass
