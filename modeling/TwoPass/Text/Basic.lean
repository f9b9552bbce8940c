/-! Text as the list of its characters, and its size and bytes in UTF-8. Every
analysis in this library recurses on this list; strings appear only where text
enters and leaves. -/
namespace TwoPass

/-- Text under analysis, as the list of its characters. -/
abbrev Text := List Char

namespace Text

def utf8Size (s : Text) : Nat := s.foldr (fun c size => c.utf8Size + size) 0

/-- The UTF-8 form itself. -/
def utf8 (s : Text) : List UInt8 := s.flatMap String.utf8EncodeChar

@[simp] theorem utf8Size_nil : utf8Size [] = 0 := rfl

@[simp] theorem utf8Size_cons (c : Char) (s : Text) :
    utf8Size (c :: s) = c.utf8Size + utf8Size s := rfl

@[simp] theorem utf8Size_append (s t : Text) :
    utf8Size (s ++ t) = utf8Size s + utf8Size t := by
  induction s with
  | nil => simp
  | cons c s ih => simp [ih, Nat.add_assoc]

/-- A character has at least one byte. -/
theorem length_le_utf8Size (s : Text) : s.length ≤ utf8Size s := by
  induction s with
  | nil => exact Nat.le_refl _
  | cons c s ih =>
      have hSize := c.utf8Size_pos
      rw [List.length_cons, utf8Size_cons]
      omega

@[simp] theorem utf8_append (s t : Text) : utf8 (s ++ t) = utf8 s ++ utf8 t := by
  simp [utf8]

end Text

end TwoPass
