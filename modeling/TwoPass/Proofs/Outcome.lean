import TwoPass.Logged

namespace TwoPass

section

variable {ε ε' α β : Type}

theorem ok_bind (a : α) (f : α → Except ε β) : .ok a >>= f = f a := rfl

/-- The inversion of sequencing. Every proof about a successful computation starts here. -/
theorem bind_eq_ok_iff {x : Except ε α} {f : α → Except ε β} {b : β} :
    x >>= f = .ok b ↔ ∃ a, x = .ok a ∧ f a = .ok b := by
  cases x with
  | error e => simp [Bind.bind, Except.bind]
  | ok a => simp [Bind.bind, Except.bind]

/-- A sequence fails in its first part, or in its second part after the first has succeeded. -/
theorem bind_eq_error_iff {x : Except ε α} {f : α → Except ε β} {e : ε} :
    x >>= f = .error e ↔ x = .error e ∨ ∃ a, x = .ok a ∧ f a = .error e := by
  cases x with
  | error e' => simp [Bind.bind, Except.bind]
  | ok a => simp [Bind.bind, Except.bind]

/-- A mapped computation succeeds if the computation does. -/
theorem map_eq_ok_iff {x : Except ε α} {f : α → β} {b : β} :
    x.map f = .ok b ↔ ∃ a, x = .ok a ∧ f a = b := by
  cases x with
  | error e => simp [Except.map]
  | ok a => simp [Except.map]

theorem mapError_ok (f : ε → ε') (a : α) : (.ok a : Except ε α).mapError f = .ok a := rfl

theorem mapError_error (f : ε → ε') (error : ε) :
    (.error error : Except ε α).mapError f = .error (f error) := rfl

/-- Renaming errors does not touch successes. -/
theorem mapError_eq_ok_iff {x : Except ε α} {f : ε → ε'} {a : α} :
    x.mapError f = .ok a ↔ x = .ok a := by
  cases x with
  | error e =>
      constructor
      · intro h
        cases h
      · intro h
        cases h
  | ok b =>
      constructor
      · intro h
        cases h
        rfl
      · intro h
        cases h
        rfl

/-- A computation with a result has succeeded. -/
theorem exists_eq_ok {x : Except ε α} (h : x.toOption.isSome = true) : ∃ a, x = .ok a := by
  cases x with
  | error e => cases h
  | ok a => exact ⟨a, rfl⟩

/-- The failure of a computation, if it fails. -/
def failure? : Except ε α → Option ε
  | .error e => some e
  | .ok _ => none

/-- A computation with a failure has failed. -/
theorem eq_error_of_failure? {x : Except ε α} {e : ε} (h : failure? x = some e) : x = .error e := by
  cases x with
  | error e' => rw [Option.some.inj h]
  | ok a => cases h

/-- Each item has its result. -/
theorem length_of_mapM_eq_ok {f : α → Except ε β} {items : List α} {results : List β}
    (h : items.mapM f = .ok results) : results.length = items.length := by
  induction items generalizing results with
  | nil =>
      rw [List.mapM_nil] at h
      cases h
      rfl
  | cons item rest ih =>
      rw [List.mapM_cons] at h
      obtain ⟨first, -, h⟩ := bind_eq_ok_iff.mp h
      obtain ⟨others, hOthers, h⟩ := bind_eq_ok_iff.mp h
      cases h
      simp [ih hOthers]

/-- Only what is computed for the items matters. -/
theorem mapM_congr {f g : α → Except ε β} {items : List α} (h : ∀ item ∈ items, f item = g item) :
    items.mapM f = items.mapM g := by
  induction items with
  | nil => rfl
  | cons item rest ih =>
      have hFirst := h item (by simp)
      have hRest := ih fun other hMem => h other (by simp [hMem])
      rw [List.mapM_cons, List.mapM_cons, hFirst, hRest]

/-- A failure in a list is the failure of one of its members. -/
theorem exists_of_mapM_eq_error {f : α → Except ε β} {items : List α} {e : ε}
    (h : items.mapM f = .error e) : ∃ item ∈ items, f item = .error e := by
  induction items with
  | nil =>
      rw [List.mapM_nil] at h
      cases h
  | cons item rest ih =>
      rw [List.mapM_cons] at h
      rcases bind_eq_error_iff.mp h with hFirst | ⟨first, -, h⟩
      · exact ⟨item, by simp, hFirst⟩
      · rcases bind_eq_error_iff.mp h with hRest | ⟨others, -, h⟩
        · obtain ⟨failing, hMem, hFails⟩ := ih hRest
          exact ⟨failing, by simp [hMem], hFails⟩
        · cases h

end

end TwoPass
