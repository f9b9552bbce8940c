import TwoPass.CommandLine.Disk
import TwoPass.Proofs.Outcome

namespace TwoPass.CommandLine.Disk

variable {disk other : Disk} {name text path directory : Text}

/-- Disks with the same directories and the same place among them. -/
structure SamePlaces (disk other : Disk) : Prop where
  directories : other.directories = disk.directories
  working : other.working = disk.working

theorem SamePlaces.symm (h : SamePlaces disk other) : SamePlaces other disk :=
  ⟨h.directories.symm, h.working.symm⟩

theorem isDirectory_congr (h : SamePlaces disk other) : other.isDirectory = disk.isDirectory := by
  funext path
  rw [isDirectory, isDirectory, h.directories]

/-- Files have a say only in why a part leads nowhere. -/
theorem enter_of_samePlaces {start part : Text} (hPlaces : SamePlaces disk other)
    (h : disk.enter start part = .ok directory) : other.enter start part = .ok directory := by
  unfold enter at h ⊢
  by_cases hSame : part = ['.']
  · rwa [if_pos hSame] at h ⊢
  by_cases hUp : part = ['.', '.']
  · rwa [if_neg hSame, if_pos hUp] at h ⊢
  by_cases hLong : longestPart < Text.utf8Size part
  · rw [if_neg hSame, if_neg hUp, if_pos hLong] at h
    cases h
  rw [if_neg hSame, if_neg hUp, if_neg hLong] at h ⊢
  dsimp only at h ⊢
  rw [isDirectory_congr hPlaces]
  by_cases hDirectory : disk.isDirectory (pathIn start part) = true
  · rwa [if_pos hDirectory] at h ⊢
  · rw [if_neg hDirectory] at h
    split at h <;> cases h

/-- A path leads to the same place on disks with the same directories. -/
theorem foldlM_enter_of_samePlaces {start : Text} {parts : List Text}
    (hPlaces : SamePlaces disk other) (h : parts.foldlM disk.enter start = .ok directory) :
    parts.foldlM other.enter start = .ok directory := by
  induction parts generalizing start with
  | nil => exact h
  | cons part rest ih =>
      rw [List.foldlM_cons, bind_eq_ok_iff] at h ⊢
      obtain ⟨next, hNext, hRest⟩ := h
      exact ⟨next, enter_of_samePlaces hPlaces hNext, ih hRest⟩

/-- So a name means the same file. -/
theorem locate_of_samePlaces {found : FileName} (hPlaces : SamePlaces disk other)
    (h : disk.locate name = .ok (directory, found)) :
    other.locate name = .ok (directory, found) := by
  unfold locate at h ⊢
  by_cases hLong : longestName < Text.utf8Size name
  · rw [if_pos hLong] at h
    cases h
  · rw [if_neg hLong] at h ⊢
    rw [hPlaces.working]
    rw [bind_eq_ok_iff] at h ⊢
    obtain ⟨reached, hReached, hFound⟩ := h
    exact ⟨reached, foldlM_enter_of_samePlaces hPlaces hReached, hFound⟩

/-- What it takes for a name to mean a file to write to. -/
theorem target_eq_ok_iff :
    disk.target name = .ok path ↔
      ∃ directory found, disk.locate name = .ok (directory, found) ∧ isDots found.last = false ∧
        found.slashed = false ∧ Text.utf8Size found.last ≤ longestPart ∧
        disk.isDirectory (pathIn directory found.last) = false ∧
        path = pathIn directory found.last := by
  unfold target
  rw [bind_eq_ok_iff, Prod.exists]
  refine exists_congr fun directory => exists_congr fun found => and_congr_right fun _ => ?_
  dsimp only
  by_cases hDots : (isDots found.last || found.slashed) = true
  · rw [if_pos hDots]
    constructor
    · intro h
      cases h
    · rintro ⟨hLast, hSlash, _⟩
      simp [hLast, hSlash] at hDots
  obtain ⟨hLast, hSlash⟩ : isDots found.last = false ∧ found.slashed = false := by
    simpa using hDots
  by_cases hLong : longestPart < Text.utf8Size found.last
  · rw [if_neg hDots, if_pos hLong]
    constructor
    · intro h
      cases h
    · rintro ⟨_, _, hShort, _⟩
      omega
  rw [if_neg hDots, if_neg hLong]
  simp only [hLast, hSlash, Nat.not_lt.mp hLong, true_and]
  cases hDirectory : disk.isDirectory (pathIn directory found.last) with
  | true => simp [throw, throwThe, MonadExceptOf.throw]
  | false => simp [pure, Except.pure, eq_comm]

/-- Writing a file does not change what any name means. -/
theorem target_of_samePlaces (hPlaces : SamePlaces disk other) (h : disk.target name = .ok path) :
    other.target name = .ok path := by
  rw [target_eq_ok_iff] at h ⊢
  obtain ⟨directory, found, hLocate, hFound⟩ := h
  rw [isDirectory_congr hPlaces]
  exact ⟨directory, found, locate_of_samePlaces hPlaces hLocate, hFound⟩

/-- Putting a file makes no directory. -/
theorem samePlaces_put (disk : Disk) (text path : Text) : SamePlaces disk (disk.put text path) :=
  ⟨rfl, rfl⟩

/-- A file that is put replaces what was there and leaves all others. -/
theorem get?_put (disk : Disk) (text file path : Text) :
    (disk.put text file).files.get? path =
      if file = path then some (.text text) else disk.files.get? path := by
  simp [put]

/-- A name that can be written to is read where it is written. -/
theorem readText_eq_ok_iff (hTarget : disk.target name = .ok path) :
    disk.readText name = .ok text ↔ disk.files.get? path = some (.text text) := by
  obtain ⟨directory, found, hLocate, hLast, hSlash, hShort, hDirectory, rfl⟩ :=
    target_eq_ok_iff.mp hTarget
  simp only [readText, hLocate, ok_bind, hLast, hSlash, hDirectory, Nat.not_lt.mpr hShort,
    if_false, Bool.false_eq_true]
  split
  · next hNone => simp [hNone, throw, throwThe, MonadExceptOf.throw]
  · next content hSome =>
      rw [hSome]
      cases content with
      | text held => simp [pure, Except.pure]
      | binary bytes => simp [throw, throwThe, MonadExceptOf.throw]

/-- Two names can be written to and mean the same file. -/
def SameFile (disk : Disk) (name other : Text) : Prop :=
  ∃ path, disk.target name = .ok path ∧ disk.target other = .ok path

/-- A disk after texts have been written under some names and nothing else has happened to its files
and directories. -/
structure Written (disk final : Disk) (texts : List (Text × Text)) : Prop where
  places : SamePlaces disk final
  holds : ∀ name text, (name, text) ∈ texts →
    (∃ path, disk.target name = .ok path) ∧ final.readText name = .ok text
  others : ∀ path, (∀ name text, (name, text) ∈ texts → disk.target name ≠ .ok path) →
    final.files.get? path = disk.files.get? path

namespace Written

variable {final : Disk} {texts : List (Text × Text)}

theorem nothing (disk : Disk) : Written disk disk [] :=
  ⟨⟨rfl, rfl⟩, by simp, fun _ _ => rfl⟩

/-- Writing one text more, to a file of its own. -/
theorem put (h : Written disk final texts) (hTarget : disk.target name = .ok path)
    (hApart : ∀ earlier held, (earlier, held) ∈ texts → ¬disk.SameFile earlier name) :
    Written disk (final.put text path) (texts ++ [(name, text)]) := by
  have hPlaces : SamePlaces disk (final.put text path) :=
    ⟨h.places.directories, h.places.working⟩
  constructor
  · exact hPlaces
  · intro earlier held hMem
    rcases List.mem_append.mp hMem with hMem | hMem
    · obtain ⟨⟨file, hFile⟩, hHolds⟩ := h.holds earlier held hMem
      refine ⟨⟨file, hFile⟩, ?_⟩
      rw [readText_eq_ok_iff (target_of_samePlaces hPlaces hFile), get?_put, if_neg]
      · exact (readText_eq_ok_iff (target_of_samePlaces h.places hFile)).mp hHolds
      · rintro rfl
        exact hApart earlier held hMem ⟨path, hFile, hTarget⟩
    · cases List.mem_singleton.mp hMem
      refine ⟨⟨path, hTarget⟩, ?_⟩
      rw [readText_eq_ok_iff (target_of_samePlaces hPlaces hTarget), get?_put, if_pos rfl]
  · intro file hFile
    rw [get?_put, if_neg]
    · exact h.others file fun earlier held hMem => hFile earlier held (by simp [hMem])
    · rintro rfl
      exact hFile name text (by simp) hTarget

end Written

end TwoPass.CommandLine.Disk
