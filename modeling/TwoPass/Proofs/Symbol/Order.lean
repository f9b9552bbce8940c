import TwoPass.Symbol.Table

namespace TwoPass

namespace NameMap

variable {α : Type}

/-- The names that have a value, in the order in which they came in. -/
def names (m : NameMap α) : List Text := m.entries.map Prod.fst

/-- The names with a value are those of the entries. -/
theorem valueIn?_isSome_iff (name : Text) (entries : List (Text × α)) :
    (valueIn? name entries).isSome ↔ name ∈ entries.map Prod.fst := by
  induction entries with
  | nil => simp [valueIn?]
  | cons entry rest ih =>
      obtain ⟨n, v⟩ := entry
      by_cases h : n = name
      · simp [valueIn?, h]
      · simp [valueIn?, h, ih, Ne.symm h]

/-- The names are exactly those that have a value. -/
theorem mem_names_iff (m : NameMap α) (name : Text) :
    name ∈ m.names ↔ (m.get? name).isSome :=
  (valueIn?_isSome_iff name m.entries).symm

/-- A new name goes to the end, and an old one stays where it is. -/
theorem map_fst_insertEntry (name : Text) (value : α) (entries : List (Text × α)) :
    (insertEntry name value entries).map Prod.fst =
      if name ∈ entries.map Prod.fst then entries.map Prod.fst
      else entries.map Prod.fst ++ [name] := by
  induction entries with
  | nil => simp [insertEntry]
  | cons entry rest ih =>
      obtain ⟨n, v⟩ := entry
      by_cases hn : n = name
      · simp [insertEntry, hn]
      · by_cases hMem : name ∈ rest.map Prod.fst
        · simp only [insertEntry, hn, if_false, List.map_cons, ih, hMem, if_true]
          simp [hMem]
        · simp only [insertEntry, hn, if_false, List.map_cons, ih, hMem]
          simp [hMem, Ne.symm hn]

/-- An insertion keeps the order of all names. A new name comes last. -/
theorem names_insert (m : NameMap α) (name : Text) (value : α) :
    (m.insert name value).names = if name ∈ m.names then m.names else m.names ++ [name] :=
  map_fst_insertEntry name value m.entries

/-- Inserting never repeats a name. -/
theorem nodup_names_insert (m : NameMap α) (name : Text) (value : α) (h : m.names.Nodup) :
    (m.insert name value).names.Nodup := by
  rw [names_insert]
  by_cases hMem : name ∈ m.names
  · rwa [if_pos hMem]
  · rw [if_neg hMem, List.nodup_append]
    refine ⟨h, by simp, ?_⟩
    intro a ha b hb
    rw [List.mem_singleton] at hb
    subst hb
    exact fun he => hMem (he ▸ ha)

/-- Inserting what is there changes nothing. -/
theorem insertEntry_eq_self (name : Text) (value : α) (entries : List (Text × α))
    (h : valueIn? name entries = some value) : insertEntry name value entries = entries := by
  induction entries with
  | nil => simp [valueIn?] at h
  | cons entry rest ih =>
      obtain ⟨n, v⟩ := entry
      by_cases hn : n = name
      · simp only [valueIn?, hn, if_true, Option.some.injEq] at h
        simp [insertEntry, hn, h]
      · simp only [valueIn?, hn, if_false] at h
        simp [insertEntry, hn, ih h]

/-- Giving a name the value that it has already changes nothing, not even the order. -/
theorem insert_eq_self {m : NameMap α} {name : Text} {value : α} (h : m.get? name = some value) :
    m.insert name value = m :=
  congrArg NameMap.mk (insertEntry_eq_self name value m.entries h)

/-- Entries are determined by their names in order and the values found for them. -/
theorem entries_eq_of_valueIn?_eq (first second : List (Text × α))
    (hNames : first.map Prod.fst = second.map Prod.fst) (hNodup : (first.map Prod.fst).Nodup)
    (hFind : ∀ name, valueIn? name first = valueIn? name second) : first = second := by
  induction first generalizing second with
  | nil =>
      rw [List.map_nil] at hNames
      exact (List.map_eq_nil_iff.mp hNames.symm).symm
  | cons entry rest ih =>
      obtain ⟨n, v⟩ := entry
      cases second with
      | nil => simp at hNames
      | cons other others =>
          obtain ⟨n', v'⟩ := other
          simp only [List.map_cons, List.cons.injEq] at hNames
          obtain ⟨rfl, hRest⟩ := hNames
          rw [List.map_cons, List.nodup_cons] at hNodup
          have hValue : v = v' := by simpa [valueIn?] using hFind n
          -- Behind the first entry its name occurs no more, so the two remainders agree on it.
          have hOthers : ∀ name, valueIn? name rest = valueIn? name others := by
            intro name
            by_cases h : n = name
            · subst h
              have hFirst := mt (valueIn?_isSome_iff n rest).mp hNodup.1
              have hSecond := mt (valueIn?_isSome_iff n others).mp (hRest ▸ hNodup.1)
              rw [Bool.not_eq_true, Option.isSome_eq_false_iff, Option.isNone_iff_eq_none] at *
              rw [hFirst, hSecond]
            · simpa [valueIn?, h] using hFind name
          rw [hValue, ih others hRest hNodup.2 hOthers]

/-- Order and values determine a map. -/
theorem eq_of_names_eq {m m' : NameMap α} (hNames : m.names = m'.names) (hNodup : m.names.Nodup)
    (hGet : ∀ name, m.get? name = m'.get? name) : m = m' :=
  congrArg NameMap.mk (entries_eq_of_valueIn?_eq m.entries m'.entries hNames hNodup hGet)

end NameMap

namespace SymbolTable

/-- All names of a table, registers included, in the order of their first definition. -/
def names (t : SymbolTable) : List Text := t.bindings.names

theorem mem_names_iff (t : SymbolTable) (name : Text) : name ∈ t.names ↔ (t.get? name).isSome :=
  t.bindings.mem_names_iff name

/-- A definition changes one name, and no register. -/
theorem get?_define (t : SymbolTable) (name other : Text) (value : Nat) :
    (t.define name value).get? other =
      if name = other ∧ isReserved name = false then some (UInt16.ofNat value)
      else t.get? other := by
  cases h : isReserved name with
  | true => simp [define, tryDefine, h]
  | false => simp [define, tryDefine, h, get?]

/-- A definition adds its name at the end, unless it is there or belongs to a register. -/
theorem names_define (t : SymbolTable) (name : Text) (value : Nat) :
    (t.define name value).names =
      if isReserved name = true ∨ name ∈ t.names then t.names else t.names ++ [name] := by
  cases h : isReserved name with
  | true => simp [define, tryDefine, h]
  | false =>
      simpa [define, tryDefine, h, names] using t.bindings.names_insert name (UInt16.ofNat value)

/-- Definitions never repeat a name. -/
theorem nodup_names_define (t : SymbolTable) (name : Text) (value : Nat) (h : t.names.Nodup) :
    (t.define name value).names.Nodup := by
  cases hReserved : isReserved name with
  | true => simpa [define, tryDefine, hReserved] using h
  | false =>
      simpa [define, tryDefine, hReserved, names] using
        t.bindings.nodup_names_insert name (UInt16.ofNat value) h

/-- Defining a name as what it is already leaves the table as it is. -/
theorem define_eq_self {t : SymbolTable} {name : Text} {value : Nat}
    (h : isReserved name = false → t.get? name = some (UInt16.ofNat value)) :
    t.define name value = t := by
  cases hReserved : isReserved name with
  | true => simp [define, tryDefine, hReserved]
  | false =>
      have hGet : t.bindings.get? name = some (UInt16.ofNat value) := h hReserved
      simp [define, tryDefine, hReserved, NameMap.insert_eq_self hGet]

theorem nodup_names_initial : initial.names.Nodup := by decide

/-- A fresh table has registers only. -/
theorem isReserved_of_mem_names_initial : ∀ name ∈ initial.names, isReserved name = true := by
  decide

/-- Tables are equal if they have the same names in the same order, with the same values. -/
theorem eq_of_names_eq {t t' : SymbolTable} (hNames : t.names = t'.names)
    (hNodup : t.names.Nodup) (hGet : ∀ name, t.get? name = t'.get? name) : t = t' :=
  congrArg SymbolTable.mk (NameMap.eq_of_names_eq hNames hNodup hGet)

/-- Every name of the smaller table has the same value in the larger one. Nothing is said about
the other names of the larger table, nor about the order. -/
def Extends (larger smaller : SymbolTable) : Prop :=
  ∀ name value, smaller.get? name = some value → larger.get? name = some value

/-- The same definition on both sides keeps one table an extension of the other. The larger
table may have given the name a different value before. -/
theorem Extends.define {larger smaller : SymbolTable} (h : larger.Extends smaller)
    (name : Text) (value : Nat) :
    (larger.define name value).Extends (smaller.define name value) := by
  intro other found hFound
  rw [get?_define] at hFound ⊢
  by_cases hName : name = other ∧ isReserved name = false
  · rwa [if_pos hName] at hFound ⊢
  · rw [if_neg hName] at hFound ⊢
    exact h other found hFound

/-- Tables with the same names are equal as soon as one extends the other. -/
theorem Extends.eq {larger smaller : SymbolTable} (h : larger.Extends smaller)
    (hNames : larger.names = smaller.names) (hNodup : larger.names.Nodup) :
    larger = smaller := by
  apply eq_of_names_eq hNames hNodup
  intro name
  cases hGet : smaller.get? name with
  | some value => exact h name value hGet
  | none =>
      have hAbsent : name ∉ larger.names := by
        rw [hNames, mem_names_iff, hGet]
        simp
      rw [mem_names_iff] at hAbsent
      simpa using hAbsent

end SymbolTable

end TwoPass
