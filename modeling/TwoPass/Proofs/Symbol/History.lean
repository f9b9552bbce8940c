import Mathlib.Data.List.Basic
import TwoPass.Proofs.Symbol.Order
import TwoPass.Proofs.Text.Decimal
import TwoPass.Text.WordChar

/-! Tables after any number of definitions. What a table shows can be told from the definitions
alone: the registers are as they were, and every other name has the value of its last definition and
the place of its first one. Names with values beyond sixteen bits and names that no line could spell
are among the definitions considered. -/
namespace TwoPass

/-- Names that occur once have the value of their entry. -/
theorem NameMap.valueIn?_of_mem {α : Type} {entries : List (Text × α)} {name : Text} {value : α}
    (hNodup : (entries.map Prod.fst).Nodup) (hMem : (name, value) ∈ entries) :
    valueIn? name entries = some value := by
  induction entries with
  | nil => simp at hMem
  | cons entry rest ih =>
      obtain ⟨n, v⟩ := entry
      rw [List.map_cons, List.nodup_cons] at hNodup
      rcases List.mem_cons.mp hMem with hFirst | hRest
      · cases hFirst
        simp [valueIn?]
      · have hNe : n ≠ name := by
          rintro rfl
          exact hNodup.1 (List.mem_map.mpr ⟨(n, value), hRest, rfl⟩)
        rw [valueIn?, if_neg hNe]
        exact ih hNodup.2 hRest

/-- A value that is found comes from an entry. -/
theorem NameMap.mem_of_valueIn? {α : Type} {entries : List (Text × α)} {name : Text} {value : α}
    (h : valueIn? name entries = some value) : (name, value) ∈ entries := by
  induction entries with
  | nil => simp [valueIn?] at h
  | cons entry rest ih =>
      obtain ⟨n, v⟩ := entry
      by_cases hName : n = name
      · rw [valueIn?, if_pos hName] at h
        cases h
        simp [hName]
      · rw [valueIn?, if_neg hName] at h
        exact List.mem_cons_of_mem _ (ih h)

namespace SymbolTable

/-- The symbols of a program are those that are no registers, in the order of the table. -/
theorem map_fst_userSymbols (t : SymbolTable) :
    t.userSymbols.map Prod.fst = t.names.filter fun name => !isReserved name := by
  rw [names, NameMap.names, List.filter_map]
  rfl

/-- The symbols of the program are the names that are no registers, with the values that they read
as. -/
theorem mem_userSymbols_iff {t : SymbolTable} (h : t.names.Nodup) {name : Text} {value : UInt16} :
    (name, value) ∈ t.userSymbols ↔ isReserved name = false ∧ t.get? name = some value := by
  have hEntry : (name, value) ∈ t.bindings.entries ↔ t.get? name = some value :=
    ⟨NameMap.valueIn?_of_mem h, NameMap.mem_of_valueIn?⟩
  simp [userSymbols, List.mem_filter, hEntry, and_comm]

/-- The table after definitions, one after the other. -/
def defineAll (t : SymbolTable) (calls : List (Text × Nat)) : SymbolTable :=
  calls.foldl (fun t call => t.define call.1 call.2) t

/-- The low sixteen bits of the last number that a name is defined as. -/
def lastValue? (name : Text) (calls : List (Text × Nat)) : Option UInt16 :=
  (calls.filter fun call => call.1 = name).getLast?.map fun call => UInt16.ofNat call.2

/-- The defined names that are no registers, as often as they are defined. -/
def freeNames (calls : List (Text × Nat)) : List Text :=
  (calls.map Prod.fst).filter fun name => !isReserved name

/-- The defined names that are no registers, each once and in the order of first definitions, with
the values of their last definitions. -/
def definedSymbols (calls : List (Text × Nat)) : List (Text × UInt16) :=
  (freeNames calls).eraseDups.filterMap fun name =>
    (lastValue? name calls).map fun value => (name, value)

/-- Later definitions go first. -/
theorem lastValue?_append (name : Text) (early late : List (Text × Nat)) :
    lastValue? name (early ++ late) = (lastValue? name late).or (lastValue? name early) := by
  simp only [lastValue?, List.filter_append, List.getLast?_append]
  cases (late.filter fun call => call.1 = name).getLast? <;> simp

theorem lastValue?_cons (name other : Text) (value : Nat) (late : List (Text × Nat)) :
    lastValue? name ((other, value) :: late) =
      (lastValue? name late).or (if other = name then some (UInt16.ofNat value) else none) := by
  have hSingle : lastValue? name [(other, value)] =
      if other = name then some (UInt16.ofNat value) else none := by
    by_cases h : other = name <;> simp [lastValue?, h]
  rw [← hSingle, ← lastValue?_append]
  rfl

/-- Register names are not free, so their definitions do not count. -/
theorem freeNames_cons (name : Text) (value : Nat) (late : List (Text × Nat)) :
    freeNames ((name, value) :: late) =
      if isReserved name = true then freeNames late else name :: freeNames late := by
  cases h : isReserved name <;> simp [freeNames, h]

theorem defineAll_cons (t : SymbolTable) (name : Text) (value : Nat) (late : List (Text × Nat)) :
    t.defineAll ((name, value) :: late) = (t.define name value).defineAll late := rfl

/-- Definitions may be made in two parts. -/
theorem defineAll_append (t : SymbolTable) (early late : List (Text × Nat)) :
    t.defineAll (early ++ late) = (t.defineAll early).defineAll late := List.foldl_append

/-- After any definitions a register is what it was. -/
theorem get?_defineAll_of_isReserved (t : SymbolTable) (calls : List (Text × Nat)) {name : Text}
    (h : isReserved name = true) : (t.defineAll calls).get? name = t.get? name := by
  induction calls generalizing t with
  | nil => rfl
  | cons call rest ih =>
      have hKept : ¬(call.1 = name ∧ isReserved call.1 = false) := by
        rintro ⟨rfl, hFree⟩
        simp [hFree] at h
      rw [defineAll_cons, ih, get?_define, if_neg hKept]

/-- After any definitions a name has the value of its last one. -/
theorem get?_defineAll (t : SymbolTable) (calls : List (Text × Nat)) {name : Text}
    (h : isReserved name = false) :
    (t.defineAll calls).get? name = (lastValue? name calls).or (t.get? name) := by
  induction calls generalizing t with
  | nil => rfl
  | cons call rest ih =>
      obtain ⟨other, value⟩ := call
      rw [defineAll_cons, ih, lastValue?_cons, Option.or_assoc, get?_define]
      by_cases hName : other = name
      · subst hName
        simp [h]
      · simp [hName]

/-- Definitions leave the names of a table in their order, and put the new ones behind them. -/
theorem names_defineAll (t : SymbolTable) (calls : List (Text × Nat)) :
    (t.defineAll calls).names =
      t.names ++ ((freeNames calls).filter (· ∉ t.names)).eraseDups := by
  induction calls generalizing t with
  | nil => simp [defineAll, freeNames]
  | cons call rest ih =>
      obtain ⟨name, value⟩ := call
      rw [defineAll_cons, ih, names_define, freeNames_cons]
      cases hReserved : isReserved name with
      | true => simp
      | false =>
          by_cases hMem : name ∈ t.names
          · simp [hMem]
          · -- A name that is new counts as known for the definitions that follow.
            have hLater : (freeNames rest).filter (· ∉ t.names ++ [name]) =
                ((freeNames rest).filter (· ∉ t.names)).filter fun other => !other == name := by
              rw [List.filter_filter]
              apply List.filter_congr
              intro other _
              rw [Bool.eq_iff_iff]
              simp [and_comm]
            simp only [hMem, Bool.false_eq_true, or_self, if_false, List.filter_cons,
              not_false_eq_true, decide_true, if_true, List.eraseDups_cons, hLater,
              List.append_assoc, List.singleton_append]

/-- No definition makes a name occur twice. -/
theorem nodup_names_defineAll (t : SymbolTable) (calls : List (Text × Nat)) (h : t.names.Nodup) :
    (t.defineAll calls).names.Nodup := by
  induction calls generalizing t with
  | nil => exact h
  | cons call rest ih => exact ih _ (t.nodup_names_define call.1 call.2 h)

/-- Free names are the defined ones without the registers. -/
theorem mem_freeNames_iff {name : Text} {calls : List (Text × Nat)} :
    name ∈ freeNames calls ↔ name ∈ calls.map Prod.fst ∧ isReserved name = false := by
  simp [freeNames]

/-- The entries of some names, told from the order of the names and their values. -/
theorem filter_entries_eq (t : SymbolTable) (shown : Text → Bool) (h : t.names.Nodup) :
    (t.bindings.entries.filter fun entry => shown entry.1) =
      (t.names.filter shown).filterMap fun name =>
        (t.get? name).map fun value => (name, value) := by
  have hValue : ∀ entry ∈ t.bindings.entries.filter fun entry => shown entry.1,
      ((t.get? entry.1).map fun value => (entry.1, value)) = some entry := by
    intro entry hMem
    have hGet : t.get? entry.1 = some entry.2 :=
      NameMap.valueIn?_of_mem h (List.mem_of_mem_filter hMem)
    simp [hGet]
  have hNames : t.names.filter shown =
      (t.bindings.entries.filter fun entry => shown entry.1).map Prod.fst := List.filter_map
  rw [hNames, List.filterMap_map]
  exact ((List.filterMap_congr hValue).trans List.filterMap_some).symm

/-- A fresh table has registers only. -/
theorem get?_initial_of_free {name : Text} (h : isReserved name = false) :
    initial.get? name = none := by
  have hAbsent : name ∉ initial.names := by
    intro hSeeded
    rw [isReserved_of_mem_names_initial name hSeeded] at h
    cases h
  simpa [mem_names_iff] using hAbsent

/-- Behind the registers stand the names of the program in the order of their first definitions. -/
theorem names_defineAll_initial (calls : List (Text × Nat)) :
    (initial.defineAll calls).names = initial.names ++ (freeNames calls).eraseDups := by
  have hNew : (freeNames calls).filter (· ∉ initial.names) = freeNames calls := by
    apply List.filter_eq_self.mpr
    intro name hMem
    simp [mem_names_iff, get?_initial_of_free (mem_freeNames_iff.mp hMem).2]
  rw [names_defineAll, hNew]

/-- The names that are shown of a table after definitions, if those of the program are among
them. -/
theorem filter_names_defineAll (calls : List (Text × Nat)) (shown : Text → Bool)
    (h : ∀ name, isReserved name = false → shown name = true) :
    (initial.defineAll calls).names.filter shown =
      initial.names.filter shown ++ (freeNames calls).eraseDups := by
  have hShown : (freeNames calls).eraseDups.filter shown = (freeNames calls).eraseDups := by
    apply List.filter_eq_self.mpr
    intro name hMem
    exact h name (mem_freeNames_iff.mp (List.mem_eraseDups.mp hMem)).2
  rw [names_defineAll_initial, List.filter_append, hShown]

/-- What is shown of the program itself. -/
theorem filterMap_get?_defineAll (calls : List (Text × Nat)) :
    ((freeNames calls).eraseDups.filterMap fun name =>
      ((initial.defineAll calls).get? name).map fun value => (name, value)) =
      definedSymbols calls := by
  apply List.filterMap_congr
  intro name hMem
  have hFree := (mem_freeNames_iff.mp (List.mem_eraseDups.mp hMem)).2
  have hFresh : initial.get? name = none := get?_initial_of_free hFree
  rw [get?_defineAll _ _ hFree, hFresh, Option.or_none]

/-- The symbols of a history are its free names with their last values, in the order of their
first definitions. -/
theorem userSymbols_defineAll (calls : List (Text × Nat)) :
    (initial.defineAll calls).userSymbols = definedSymbols calls := by
  have hSeeded : initial.names.filter (fun name => !isReserved name) = [] := by decide
  have hNames := filter_names_defineAll calls (fun name => !isReserved name) (by simp)
  have hEntries := filter_entries_eq (initial.defineAll calls) (fun name => !isReserved name)
    (nodup_names_defineAll initial calls nodup_names_initial)
  rw [hNames, hSeeded, List.nil_append, filterMap_get?_defineAll] at hEntries
  exact hEntries

/-- A listing starts with the status register. -/
theorem listed_defineAll (calls : List (Text × Nat)) :
    (initial.defineAll calls).listed = (['p', 's', 'r'], 0) :: definedSymbols calls := by
  have hSeeded : initial.names.filter (fun name => name == ['p', 's', 'r'] || !isReserved name) =
      [['p', 's', 'r']] := by decide
  have hStatus : (initial.defineAll calls).get? ['p', 's', 'r'] = some 0 :=
    get?_defineAll_of_isReserved initial calls rfl
  have hNames := filter_names_defineAll calls
    (fun name => name == ['p', 's', 'r'] || !isReserved name) (by simp +contextual)
  have hEntries := filter_entries_eq (initial.defineAll calls)
    (fun name => name == ['p', 's', 'r'] || !isReserved name)
    (nodup_names_defineAll initial calls nodup_names_initial)
  rw [hNames, hSeeded, List.filterMap_append, filterMap_get?_defineAll, List.filterMap_cons,
    hStatus] at hEntries
  exact hEntries

/-- What a table shows that started fresh and has been through a list of definitions: how names
read, what one more definition is answered, and the three lists of symbols. -/
structure Shows (t : SymbolTable) (calls : List (Text × Nat)) : Prop where
  registers : ∀ i < 16, t.get? ('r' :: Nat.toDigits 10 i) = some (UInt16.ofNat i)
  counter : t.get? ['p', 'c'] = some 15
  status : t.get? ['p', 's', 'r'] = some 0
  answer : ∀ name value, (t.tryDefine name value).2 = false ↔ isReserved name = true
  refused : ∀ name value, isReserved name = true → (t.tryDefine name value).1 = t
  value : ∀ name, isReserved name = false → t.get? name = lastValue? name calls
  user : t.userSymbols = definedSymbols calls
  exported : t.exported = (definedSymbols calls).map fun (name, value) => { name, value }
  listed : t.listed = (['p', 's', 'r'], 0) :: definedSymbols calls

/-- Every view of a table shows the same history. -/
theorem shows_defineAll (calls : List (Text × Nat)) : (initial.defineAll calls).Shows calls := by
  have hRegisters : ∀ i < 16, isReserved ('r' :: Nat.toDigits 10 i) = true ∧
      initial.get? ('r' :: Nat.toDigits 10 i) = some (UInt16.ofNat i) := by decide
  constructor
  · intro i hSmall
    rw [get?_defineAll_of_isReserved _ _ (hRegisters i hSmall).1, (hRegisters i hSmall).2]
  · exact get?_defineAll_of_isReserved initial calls rfl
  · exact get?_defineAll_of_isReserved initial calls rfl
  · intro name value
    cases h : isReserved name <;> simp [tryDefine, h]
  · intro name value h
    simp [tryDefine, h]
  · intro name hFree
    rw [get?_defineAll _ _ hFree, get?_initial_of_free hFree, Option.or_none]
  · exact userSymbols_defineAll calls
  · rw [SymbolTable.exported, userSymbols_defineAll]
  · exact listed_defineAll calls

/-! The two descriptions of register names. -/

/-- A name is reserved by its spelling alone. -/
theorem isReserved_iff {name : Text} :
    isReserved name = true ↔ name ∈ aliases.map Prod.fst ∨
      ∃ index i, name = 'r' :: index ∧ registerIndex? index = some i ∧ i < 16 := by
  have hAlias : aliases.any (·.1 == name) = true ↔ name ∈ aliases.map Prod.fst := by
    simp only [List.any_eq_true, beq_iff_eq, List.mem_map]
  unfold isReserved
  rw [Bool.or_eq_true, hAlias]
  apply or_congr_right
  split
  · next index =>
      cases hIndex : registerIndex? index <;> simp [hIndex]
  · next hOther =>
      simp only [Bool.false_eq_true, false_iff]
      rintro ⟨index, i, hName, -⟩
      exact hOther index hName

/-- A word that spells the index of a register is the usual spelling of that index. -/
theorem toDigits_of_registerIndex? {index : Text} {i : Nat}
    (hWord : index.all Text.isWordChar = true) (h : registerIndex? index = some i) :
    index = Nat.toDigits 10 i := by
  unfold registerIndex? at h
  split at h
  · -- A plus sign is no word character.
    have hPlus : Text.isWordChar '+' = false := by decide
    simp [hPlus] at hWord
  · cases h
  · next hPlus hLong =>
      cases index with
      | nil => cases h
      | cons c rest =>
          by_cases hZero : c = '0'
          · subst hZero
            cases rest with
            | nil =>
                cases h
                rfl
            | cons d rest => exact absurd rfl (hLong d rest)
          · exact Text.toDigits_of_decimal? hZero h

/-- A word is the name of a register if and only if a fresh table has it. Other texts can count as
names of registers without being in the table, as `r+5` does. -/
theorem isReserved_iff_mem_names_initial {name : Text} (h : name.all Text.isWordChar = true) :
    isReserved name = true ↔ name ∈ initial.names := by
  constructor
  · intro hReserved
    rcases isReserved_iff.mp hReserved with hAlias | ⟨index, i, rfl, hIndex, hSmall⟩
    · have hSeeded : ∀ other ∈ aliases.map Prod.fst, other ∈ initial.names := by decide
      exact hSeeded name hAlias
    · have hSeeded : ∀ i < 16, 'r' :: Nat.toDigits 10 i ∈ initial.names := by decide
      rw [List.all_cons, Bool.and_eq_true] at h
      rw [toDigits_of_registerIndex? h.2 hIndex]
      exact hSeeded i hSmall
  · exact isReserved_of_mem_names_initial name

end SymbolTable

end TwoPass
