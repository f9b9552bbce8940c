import TwoPass.Text.Hex

/-! The memory image: 65536 words, each of which is zero until it is written. Addresses wrap
around at the top. -/
namespace TwoPass

/-- A memory image. A cell is `none` as long as nothing has been written to it. -/
structure Image where
  cells : Vector (Option UInt16) 65536

namespace Image

def empty : Image := ⟨Vector.replicate 65536 none⟩

def cell (image : Image) (address : UInt16) : Option UInt16 :=
  have inside : address.toNat < 65536 := address.toNat_lt
  image.cells[address.toNat]

def read (image : Image) (address : UInt16) : UInt16 := (image.cell address).getD 0

def store (image : Image) (address : UInt16) (word : UInt16) : Image :=
  ⟨image.cells.set address.toNat (some word) address.toNat_lt⟩

/-- Writes words from an address on. Also gives the addresses at which it met a word that was
there already, in the order of writing; a write that is longer than the memory meets its own
words. -/
def writeThrough (image : Image) (address : Nat) : List UInt16 → Image × List UInt16
  | [] => (image, [])
  | word :: rest =>
    let target := UInt16.ofNat address
    let met := (image.cell target).isSome
    let (image, later) := writeThrough (image.store target word) (address + 1) rest
    (image, if met then target :: later else later)

/-- The image after words have been written from an address on. -/
def write (image : Image) (address : Nat) (words : List UInt16) : Image :=
  (image.writeThrough address words).1

/-- The addresses at which a write meets a word that is there already. -/
def overwritten (image : Image) (address : Nat) (words : List UInt16) : List UInt16 :=
  (image.writeThrough address words).2

/-- How many words have been written, each counted once. -/
def used (image : Image) : Nat := image.cells.countP Option.isSome

def words (image : Image) : List UInt16 := image.cells.toList.map (·.getD 0)

@[simp] theorem length_words (image : Image) : image.words.length = 65536 := by
  simp [words]

@[simp] theorem cell_empty (address : UInt16) : empty.cell address = none := by
  simp [cell, empty]

theorem cell_store (image : Image) (address other : UInt16) (word : UInt16) :
    (image.store address word).cell other =
      if other = address then some word else image.cell other := by
  simp only [cell, store, Vector.getElem_set, UInt16.toNat_inj]
  by_cases h : other = address
  · simp [h]
  · simp [h, Ne.symm h]

@[simp] theorem write_nil (image : Image) (address : Nat) : image.write address [] = image := rfl

@[simp] theorem write_cons (image : Image) (address : Nat) (word : UInt16) (rest : List UInt16) :
    image.write address (word :: rest) =
      (image.store (UInt16.ofNat address) word).write (address + 1) rest := rfl

end Image

end TwoPass
