import TwoPass.Text.Basic

/-! Maps from names that remember the order in which names first came in. Giving a name a
new value leaves it at its place. -/
namespace TwoPass

/-- Names with values, in the order in which the names were first inserted. -/
structure NameMap (α : Type) where
  entries : List (Text × α)
  deriving DecidableEq, Repr

namespace NameMap

variable {α : Type}

def empty : NameMap α := ⟨[]⟩

def valueIn? (name : Text) : List (Text × α) → Option α
  | [] => none
  | (n, v) :: rest => if n = name then some v else valueIn? name rest

def get? (m : NameMap α) (name : Text) : Option α := valueIn? name m.entries

/-- The entries with one value changed or a new entry at the end. -/
def insertEntry (name : Text) (value : α) : List (Text × α) → List (Text × α)
  | [] => [(name, value)]
  | (n, v) :: rest => if n = name then (n, value) :: rest else (n, v) :: insertEntry name value rest

def insert (m : NameMap α) (name : Text) (value : α) : NameMap α :=
  ⟨insertEntry name value m.entries⟩

def modify (m : NameMap α) (name : Text) (f : α → α) : NameMap α :=
  match m.get? name with
  | some value => m.insert name (f value)
  | none => m

def size (m : NameMap α) : Nat := m.entries.length

@[simp] theorem get?_empty (name : Text) : (empty : NameMap α).get? name = none := rfl

theorem valueIn?_insertEntry (name other : Text) (value : α) (entries : List (Text × α)) :
    valueIn? other (insertEntry name value entries) =
      if name = other then some value else valueIn? other entries := by
  induction entries with
  | nil => simp [insertEntry, valueIn?]
  | cons entry rest ih =>
    obtain ⟨n, v⟩ := entry
    by_cases hn : n = name
    · subst hn
      by_cases h : n = other <;> simp [insertEntry, valueIn?, h]
    · by_cases h : n = other
      · subst h
        simp [insertEntry, valueIn?, hn, Ne.symm hn]
      · simp [insertEntry, valueIn?, hn, h, ih]

/-- An insertion changes one name only. -/
@[simp] theorem get?_insert (m : NameMap α) (name other : Text) (value : α) :
    (m.insert name value).get? other = if name = other then some value else m.get? other :=
  valueIn?_insertEntry name other value m.entries

/-- A change of one value changes no other, and brings in no name. -/
@[simp] theorem get?_modify (m : NameMap α) (name other : Text) (f : α → α) :
    (m.modify name f).get? other =
      if name = other then (m.get? other).map f else m.get? other := by
  unfold modify
  by_cases h : name = other
  · subst h
    cases hGet : m.get? name <;> simp [hGet]
  · cases m.get? name <;> simp [h]

end NameMap

end TwoPass
