import TwoPass.Assembly.Step
import TwoPass.Proofs.Image.Placement

/-! Writes one after another, from an image in which nothing has been written. Writes may overlap
each other and themselves. Every word that is passed to a write either takes a cell that was empty
or is told to replace another one, and this balance holds at every point of the history. -/
namespace TwoPass

/-- A request to write words from an address on. -/
structure Write where
  address : UInt32
  words : List UInt16

/-- The single words of all writes with the cells that they go to, in the order of writing. -/
def placed (writes : List Write) : List (UInt16 × UInt16) :=
  writes.flatMap fun write => placements write.address.toNat write.words

namespace Image

/-- The image after writes one after another, with everything that they tell. -/
def writeAll (image : Image) : List Write → Image × List Event
  | [] => (image, [])
  | first :: rest =>
    let (final, later) := (image.write first.address.toNat first.words).writeAll rest
    (final, image.writeEvents first.address.toNat first.words ++ later)

section OneWrite

/-- Whether a word replaces another is asked before it is stored. -/
theorem overwritten_cons (image : Image) (address : Nat) (word : UInt16) (rest : List UInt16) :
    image.overwritten address (word :: rest) =
      (if (image.cell (UInt16.ofNat address)).isSome then [UInt16.ofNat address] else []) ++
        (image.store (UInt16.ofNat address) word).overwritten (address + 1) rest := by
  simp only [overwritten, writeThrough]
  split <;> rfl

/-- Each word of a write meets an empty cell, which is used from then on, or it replaces a word. -/
theorem length_overwritten_add_used (image : Image) (address : Nat) (words : List UInt16) :
    (image.overwritten address words).length + (image.write address words).used =
      image.used + words.length := by
  induction words generalizing image address with
  | nil => exact Nat.zero_add _
  | cons word rest ih =>
      have hRest := ih (image.store (UInt16.ofNat address) word) (address + 1)
      rw [used_store] at hRest
      rw [overwritten_cons, write_cons, List.length_append, List.length_cons]
      cases hCell : (image.cell (UInt16.ofNat address)).isSome with
      | true =>
          rw [hCell, if_pos rfl] at hRest
          rw [if_pos rfl, List.length_singleton]
          omega
      | false =>
          rw [hCell, if_neg Bool.false_ne_true] at hRest
          rw [if_neg Bool.false_ne_true, List.length_nil]
          omega

end OneWrite

section AllWrites

variable (image : Image) (writes : List Write)

/-- A cell holds the last word that was placed there. -/
theorem cell_writeAll (target : UInt16) :
    (image.writeAll writes).1.cell target =
      (lastPlaced target (placed writes)).or (image.cell target) := by
  induction writes generalizing image with
  | nil => rfl
  | cons first rest ih =>
      rw [placed, List.flatMap_cons, lastPlaced_append, Option.or_assoc, ← cell_write]
      exact ih (image.write first.address.toNat first.words)

/-- What is used are the addresses written to. -/
theorem Covers.writeAll {image : Image} {written : Finset UInt16} (h : image.Covers written) :
    (image.writeAll writes).1.Covers (written ∪ ((placed writes).map Prod.fst).toFinset) := by
  induction writes generalizing image written with
  | nil =>
      change image.Covers (written ∪ ∅)
      rwa [Finset.union_empty]
  | cons first rest ih =>
      have hRest := ih (h.write first.address.toNat first.words)
      rw [Finset.union_assoc, ← List.toFinset_append, ← List.map_append] at hRest
      exact hRest

/-- Each word written either replaces one or uses a new cell. -/
theorem length_told_add_used :
    (image.writeAll writes).2.length + (image.writeAll writes).1.used =
      image.used + (writes.flatMap (·.words)).length := by
  induction writes generalizing image with
  | nil => exact Nat.zero_add _
  | cons first rest ih =>
      have hFirst := image.length_overwritten_add_used first.address.toNat first.words
      have hRest := ih (image.write first.address.toNat first.words)
      simp only [Image.writeAll, writeEvents, List.flatMap_cons, List.length_append,
        List.length_map]
      omega

/-- Nothing is told but replacements. -/
theorem told_writeAll {event : Event} (h : event ∈ (image.writeAll writes).2) :
    ∃ address, event = .wordReplaced address := by
  induction writes generalizing image with
  | nil => cases h
  | cons first rest ih =>
      rcases List.mem_append.mp h with h | h
      · obtain ⟨address, -, rfl⟩ := List.mem_map.mp h
        exact ⟨address, rfl⟩
      · exact ih _ h

end AllWrites

/-- The words of an image are what is read at its addresses. -/
theorem words_eq_map_read (image : Image) :
    image.words = (List.range 65536).map fun address => image.read (UInt16.ofNat address) := by
  apply List.ext_getElem
  · simp only [length_words, List.length_map, List.length_range]
  · intro index hWords _
    have hInside : index < 65536 := image.length_words ▸ hWords
    have hAddress : (UInt16.ofNat index).toNat = index := UInt16.toNat_ofNat_of_lt hInside
    simp only [words, read, cell, List.getElem_map, List.getElem_range, Vector.getElem_toList,
      hAddress]

/-- After any writes, each of the 65536 addresses reads as the last word that was placed there, or
as zero. The cells in use are those that some word was placed in, and every further word has been
told to replace one. -/
theorem history_is_accounted (writes : List Write) :
    (∀ target, (empty.writeAll writes).1.read target =
      (lastPlaced target (placed writes)).getD 0) ∧
    (empty.writeAll writes).1.words.length = 65536 ∧
    (empty.writeAll writes).1.words = (List.range 65536).map
      (fun address => (lastPlaced (UInt16.ofNat address) (placed writes)).getD 0) ∧
    (empty.writeAll writes).1.used = ((placed writes).map Prod.fst).toFinset.card ∧
    (∀ event ∈ (empty.writeAll writes).2, ∃ address, event = .wordReplaced address) ∧
    (empty.writeAll writes).2.length + (empty.writeAll writes).1.used =
      (writes.flatMap (·.words)).length := by
  have hRead : ∀ target, (empty.writeAll writes).1.read target =
      (lastPlaced target (placed writes)).getD 0 := by
    intro target
    rw [read, cell_writeAll, cell_empty, Option.or_none]
  have hCovers := covers_empty.writeAll writes
  have hBalance := empty.length_told_add_used writes
  rw [Finset.empty_union] at hCovers
  rw [covers_empty.used_eq, Finset.card_empty, Nat.zero_add] at hBalance
  refine ⟨hRead, length_words _, ?_, hCovers.used_eq, fun _ => empty.told_writeAll writes, hBalance⟩
  rw [words_eq_map_read]
  exact List.map_congr_left fun address _ => hRead _

end Image

end TwoPass
