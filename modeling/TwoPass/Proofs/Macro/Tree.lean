import Mathlib.Data.List.Sort
import TwoPass.Macro.Expansion

/-! The expansion of a line as a tree. A call has the lines of its body below it, with the arguments
put in, and all other lines are leaves. Macros may call themselves, so the tree may be infinite. It
is therefore given by its nodes: an address says which line of the body to go to, call after call.
The lexicographic order of addresses is the preorder of the tree. -/
namespace TwoPass.Macro

/-- A tree of lines, as the line at each address. -/
abbrev Tree := List Nat → Option Text

def expansionTree (macros : MacroTable) : Text → Tree
  | line, [] => some line
  | line, i :: rest =>
    match callOf? macros line with
    | none => none
    | some (call, m) =>
      (m.bodyFor call.arguments)[i]?.bind fun inner => expansionTree macros inner rest

/-- The call at an address. The calls above it are open around it, so at an address of length `n`
it is the last one in a chain of `n + 1` calls. -/
def Tree.callAt (macros : MacroTable) (tree : Tree) (address : List Nat) : Option (Call × Macro) :=
  (tree address).bind (callOf? macros)

/-- The lines that a node stands for by itself: a line without a call is left as it is, and a call
leaves its line as a comment and then its label with a colon, if it has one. -/
def Tree.shownAt (macros : MacroTable) (tree : Tree) (address : List Nat) : List Text :=
  match tree address with
  | none => []
  | some line =>
    match callOf? macros line with
    | none => [line]
    | some (⟨some label, _, _⟩, _) => ['#' :: line, label ++ [':']]
    | some (⟨none, _, _⟩, _) => ['#' :: line]

/-- All addresses of a tree in preorder. Only finite trees have such a list. -/
structure Tree.Preorder (tree : Tree) (addresses : List (List Nat)) : Prop where
  sorted : addresses.Pairwise (· < ·)
  complete : ∀ address, address ∈ addresses ↔ (tree address).isSome = true

/-- The first call in preorder among those that lie inside the given number of others. -/
structure Tree.FirstCall (macros : MacroTable) (tree : Tree) (depth : Nat) (address : List Nat)
    (m : Macro) : Prop where
  depth_eq : address.length = depth
  call : ∃ call, tree.callAt macros address = some (call, m)
  first : ∀ earlier < address, earlier.length = depth → tree.callAt macros earlier = none

/-- The trees of several lines side by side, without a node above them. -/
def forest (macros : MacroTable) (lines : List Text) : Tree
  | [] => none
  | i :: rest => lines[i]?.bind fun line => expansionTree macros line rest

/-- The two ways in which the expansion of a tree ends. -/
inductive Outcome (macros : MacroTable) (tree : Tree) (depth : Nat) :
    Except AssemblyError (List Text) → Prop where
  | listed {addresses : List (List Nat)} (order : tree.Preorder addresses)
      (shallow : ∀ address, address.length = depth → tree.callAt macros address = none) :
      Outcome macros tree depth (.ok (addresses.flatMap (tree.shownAt macros)))
  | runaway {address : List Nat} {m : Macro} (first : tree.FirstCall macros depth address m) :
      Outcome macros tree depth (.error (.macroRecursion m.name depthLimit))

section

variable {macros : MacroTable} {line : Text} {lines : List Text} {call : Call} {m : Macro}
  {depth : Nat}

/-- Below a call is the forest of its body. -/
theorem expansionTree_cons (h : callOf? macros line = some (call, m)) (i : Nat) (rest : List Nat) :
    expansionTree macros line (i :: rest) =
      forest macros (m.bodyFor call.arguments) (i :: rest) := by
  simp [expansionTree, forest, h]

/-- A line that calls nothing has no lines below it. -/
theorem expansionTree_leaf (h : callOf? macros line = none) (i : Nat) (rest : List Nat) :
    expansionTree macros line (i :: rest) = none := by
  simp [expansionTree, h]

/-- The address in a forest to which an address moves when another tree is put in front. -/
def shift : List Nat → List Nat
  | [] => []
  | i :: rest => (i + 1) :: rest

@[simp] theorem shift_eq_nil_iff {address : List Nat} : shift address = [] ↔ address = [] := by
  cases address <;> simp [shift]

@[simp] theorem shift_ne_zero {address rest : List Nat} : shift address ≠ 0 :: rest := by
  cases address <;> simp [shift]

@[simp] theorem shift_eq_succ_iff {address rest : List Nat} {i : Nat} :
    shift address = (i + 1) :: rest ↔ address = i :: rest := by
  cases address <;> simp [shift]

/-- Addresses of later siblings keep their order. -/
theorem shift_lt_shift {first second : List Nat} (h : first < second) :
    shift first < shift second := by
  cases second with
  | nil => simp at h
  | cons j second =>
      cases first with
      | nil => simp [shift]
      | cons i first => simpa [shift, List.cons_lt_cons_iff] using h

theorem forest_cons_zero (address : List Nat) :
    forest macros (line :: lines) (0 :: address) = expansionTree macros line address := rfl

theorem forest_cons_shift (address : List Nat) :
    forest macros (line :: lines) (shift address) = forest macros lines address := by
  cases address <;> rfl

namespace Tree.Preorder

/-- A line that calls nothing is alone in its order. -/
theorem leaf (h : callOf? macros line = none) : (expansionTree macros line).Preorder [[]] := by
  refine ⟨by simp, ?_⟩
  intro address
  cases address with
  | nil => simp [expansionTree]
  | cons i rest => simp [expansionTree_leaf h]

theorem ne_nil {addresses : List (List Nat)} (h : (forest macros lines).Preorder addresses) :
    ∀ address ∈ addresses, address ≠ [] := by
  rintro address hMem rfl
  simpa [forest] using (h.complete []).mp hMem

/-- A line that calls a macro comes before the lines of the body. -/
theorem above {addresses : List (List Nat)} (h : callOf? macros line = some (call, m))
    (hBody : (forest macros (m.bodyFor call.arguments)).Preorder addresses) :
    (expansionTree macros line).Preorder ([] :: addresses) := by
  constructor
  · rw [List.pairwise_cons]
    refine ⟨?_, hBody.sorted⟩
    intro address hMem
    obtain ⟨i, rest, rfl⟩ := List.exists_cons_of_ne_nil (hBody.ne_nil address hMem)
    exact List.nil_lt_cons i rest
  · intro address
    cases address with
    | nil => simp [expansionTree]
    | cons i rest => simp [expansionTree_cons h, hBody.complete]

theorem nil : (forest macros []).Preorder [] := by
  refine ⟨by simp, ?_⟩
  intro address
  cases address <;> simp [forest]

/-- The first tree of a forest comes in front of the others. -/
theorem cons {front back : List (List Nat)} (hFront : (expansionTree macros line).Preorder front)
    (hBack : (forest macros lines).Preorder back) :
    (forest macros (line :: lines)).Preorder (front.map (0 :: ·) ++ back.map shift) := by
  constructor
  · rw [List.pairwise_append]
    refine ⟨?_, ?_, ?_⟩
    · apply hFront.sorted.map
      intro first second hLess
      simpa [List.cons_lt_cons_iff] using hLess
    · exact hBack.sorted.map _ fun _ _ => shift_lt_shift
    · intro first hFirst second hSecond
      obtain ⟨address, -, rfl⟩ := List.mem_map.mp hFirst
      obtain ⟨other, hOther, rfl⟩ := List.mem_map.mp hSecond
      obtain ⟨i, rest, rfl⟩ := List.exists_cons_of_ne_nil (hBack.ne_nil other hOther)
      simp [shift, List.cons_lt_cons_iff]
  · intro address
    rw [List.mem_append, List.mem_map, List.mem_map]
    match address with
    | [] =>
        have hNil : [] ∉ back := fun hMem => hBack.ne_nil [] hMem rfl
        simp [forest, hNil]
    | 0 :: rest => simp [forest_cons_zero, hFront.complete]
    | (i + 1) :: rest => simp [hBack.complete, forest]

end Tree.Preorder

namespace Tree.FirstCall

/-- At depth zero, the call itself is the first. -/
theorem root (h : callOf? macros line = some (call, m)) :
    (expansionTree macros line).FirstCall macros 0 [] m := by
  refine ⟨rfl, ⟨call, h⟩, ?_⟩
  intro earlier hLess
  simp at hLess

/-- A call further down is reached through the body. -/
theorem below {address : List Nat} {inner : Macro} (h : callOf? macros line = some (call, m))
    (hBody : (forest macros (m.bodyFor call.arguments)).FirstCall macros (depth + 1) address
      inner) :
    (expansionTree macros line).FirstCall macros (depth + 1) address inner := by
  have hSame : ∀ other : List Nat, other.length = depth + 1 →
      (expansionTree macros line).callAt macros other =
        (forest macros (m.bodyFor call.arguments)).callAt macros other := by
    intro other hLength
    obtain ⟨i, rest, rfl⟩ := List.exists_cons_of_length_eq_add_one hLength
    rw [callAt, expansionTree_cons h, callAt]
  refine ⟨hBody.depth_eq, ?_, ?_⟩
  · rw [hSame address hBody.depth_eq]
    exact hBody.call
  · intro earlier hLess hLength
    rw [hSame earlier hLength]
    exact hBody.first earlier hLess hLength

/-- The first call of the first line is the first of all lines. -/
theorem head {address : List Nat}
    (h : (expansionTree macros line).FirstCall macros depth address m) :
    (forest macros (line :: lines)).FirstCall macros (depth + 1) (0 :: address) m := by
  refine ⟨by simp [h.depth_eq], h.call, ?_⟩
  intro earlier hLess hLength
  obtain ⟨i, rest, rfl⟩ := List.exists_cons_of_length_eq_add_one hLength
  obtain ⟨rfl, hRest⟩ : i = 0 ∧ rest < address := by simpa [List.cons_lt_cons_iff] using hLess
  exact h.first rest hRest (by simpa using hLength)

/-- Behind a tree without calls at that depth, the first call is that of the other trees. -/
theorem tail {address : List Nat}
    (hFront : ∀ other, other.length = depth →
      (expansionTree macros line).callAt macros other = none)
    (h : (forest macros lines).FirstCall macros (depth + 1) address m) :
    (forest macros (line :: lines)).FirstCall macros (depth + 1) (shift address) m := by
  obtain ⟨i, rest, rfl⟩ := List.exists_cons_of_length_eq_add_one h.depth_eq
  refine ⟨h.depth_eq, h.call, ?_⟩
  intro earlier hLess hLength
  obtain ⟨j, others, rfl⟩ := List.exists_cons_of_length_eq_add_one hLength
  cases j with
  | zero => exact hFront others (by simpa using hLength)
  | succ j =>
      have hBefore : j :: others < i :: rest := by
        simpa [shift, List.cons_lt_cons_iff] using hLess
      exact h.first (j :: others) hBefore hLength

end Tree.FirstCall

namespace Outcome

/-- A line that calls nothing is all that is shown. -/
theorem leaf (h : callOf? macros line = none) :
    Outcome macros (expansionTree macros line) depth (.ok [line]) := by
  have hShallow : ∀ address : List Nat, address.length = depth →
      (expansionTree macros line).callAt macros address = none := by
    intro address _
    cases address with
    | nil => exact h
    | cons i rest => simp [Tree.callAt, expansionTree_leaf h]
  simpa [Tree.shownAt, expansionTree, h] using Outcome.listed (.leaf h) hShallow

/-- A call shows its heading and what the body shows, or fails as the body does. -/
theorem above {result : Except AssemblyError (List Text)} (h : callOf? macros line = some (call, m))
    (hBody : Outcome macros (forest macros (m.bodyFor call.arguments)) (depth + 1) result) :
    Outcome macros (expansionTree macros line) (depth + 1)
      (result >>= fun body => .ok (heading line call ++ body)) := by
  cases hBody with
  | runaway first => exact .runaway (first.below h)
  | @listed addresses order shallow =>
      have hShallow : ∀ address, address.length = depth + 1 →
          (expansionTree macros line).callAt macros address = none := by
        intro address hLength
        obtain ⟨i, rest, rfl⟩ := List.exists_cons_of_length_eq_add_one hLength
        rw [Tree.callAt, expansionTree_cons h]
        exact shallow (i :: rest) hLength
      have hShown : addresses.flatMap ((expansionTree macros line).shownAt macros) =
          addresses.flatMap ((forest macros (m.bodyFor call.arguments)).shownAt macros) := by
        apply List.flatMap_congr
        intro address hMem
        obtain ⟨i, rest, rfl⟩ := List.exists_cons_of_ne_nil (order.ne_nil address hMem)
        rw [Tree.shownAt, expansionTree_cons h, Tree.shownAt]
      have hRoot : (expansionTree macros line).shownAt macros [] = heading line call := by
        rcases call with ⟨_ | label, _, _⟩ <;> simp [Tree.shownAt, expansionTree, h, heading]
      have hListed := Outcome.listed (order.above h) hShallow
      rwa [List.flatMap_cons, hRoot, hShown] at hListed

theorem nil : Outcome macros (forest macros []) (depth + 1) (.ok []) := by
  apply Outcome.listed .nil
  intro address hLength
  obtain ⟨i, rest, rfl⟩ := List.exists_cons_of_length_eq_add_one hLength
  rfl

/-- Lines are shown one after another, and the first failure ends everything. -/
theorem cons {first others : Except AssemblyError (List Text)}
    (hFirst : Outcome macros (expansionTree macros line) depth first)
    (hOthers : Outcome macros (forest macros lines) (depth + 1) others) :
    Outcome macros (forest macros (line :: lines)) (depth + 1)
      (first >>= fun front => others >>= fun back => .ok (front ++ back)) := by
  cases hFirst with
  | runaway first => exact .runaway first.head
  | @listed front order shallow =>
      cases hOthers with
      | runaway first => exact .runaway (first.tail shallow)
      | @listed back order' shallow' =>
          have hShallow : ∀ address, address.length = depth + 1 →
              (forest macros (line :: lines)).callAt macros address = none := by
            intro address hLength
            obtain ⟨i, rest, rfl⟩ := List.exists_cons_of_length_eq_add_one hLength
            cases i with
            | zero => exact shallow rest (by simpa using hLength)
            | succ i => exact shallow' (i :: rest) hLength
          have hBack : ∀ address, (forest macros (line :: lines)).shownAt macros (shift address) =
              (forest macros lines).shownAt macros address := by
            intro address
            rw [Tree.shownAt, forest_cons_shift, Tree.shownAt]
          have hListed := Outcome.listed (order.cons order') hShallow
          rw [List.flatMap_append, List.flatMap_map, List.flatMap_map] at hListed
          simp only [hBack] at hListed
          exact hListed

end Outcome

/-- Expansion with a limit, call by call: it lists the tree or meets the first call that is too
deep. -/
theorem outcome_expandWithin (macros : MacroTable) (budget : Nat) (line : Text) :
    Outcome macros (expansionTree macros line) budget (expandWithin macros budget line).result := by
  induction budget generalizing line with
  | zero =>
      rw [expandWithin]
      cases h : callOf? macros line with
      | none => exact .leaf h
      | some called => exact .runaway (.root h)
  | succ budget ih =>
      rw [expandWithin]
      cases h : callOf? macros line with
      | none => exact .leaf h
      | some called =>
          obtain ⟨call, m⟩ := called
          have hForest : ∀ lines, Outcome macros (forest macros lines) (budget + 1)
              (Logged.flatMap (expandWithin macros budget) lines).result := by
            intro lines
            induction lines with
            | nil => exact .nil
            | cons line rest ihRest =>
                simpa [Logged.flatMap] using Outcome.cons (ih line) ihRest
          simp only [Logged.result_bind, Logged.result_tell, Logged.result_pure]
          exact .above h (hForest _)

/-- All that comes out of a line belongs to some node of its tree. -/
theorem exists_mem_shownAt {budget : Nat} {out : List Text} {text : Text}
    (h : (expandWithin macros budget line).result = .ok out) (hMem : text ∈ out) :
    ∃ address, text ∈ (expansionTree macros line).shownAt macros address := by
  have hOutcome := outcome_expandWithin macros budget line
  rw [h] at hOutcome
  cases hOutcome with
  | listed _ _ =>
      obtain ⟨address, -, hShown⟩ := List.mem_flatMap.mp hMem
      exact ⟨address, hShown⟩

/-- All lines above a node are calls. -/
theorem isSome_callAt_take {address : List Nat} {count : Nat} (hCount : count ≤ address.length)
    (h : ((expansionTree macros line).callAt macros address).isSome = true) :
    ((expansionTree macros line).callAt macros (address.take count)).isSome = true := by
  induction count generalizing line address with
  | zero =>
      cases hCall : callOf? macros line with
      | some called => simp [Tree.callAt, expansionTree, hCall]
      | none =>
          cases address with
          | nil => simpa using h
          | cons i rest => simp [Tree.callAt, expansionTree_leaf hCall] at h
  | succ count ih =>
      cases address with
      | nil => simp at hCount
      | cons i rest =>
          cases hCall : callOf? macros line with
          | none => simp [Tree.callAt, expansionTree_leaf hCall] at h
          | some called =>
              obtain ⟨call, m⟩ := called
              rw [List.take_succ_cons]
              rw [Tree.callAt, expansionTree_cons hCall, forest] at h ⊢
              cases hInner : (m.bodyFor call.arguments)[i]? with
              | none => simp [hInner] at h
              | some inner =>
                  rw [hInner] at h
                  exact ih (by simpa using hCount) h

/-- A tree has one preorder. -/
theorem Tree.Preorder.unique {tree : Tree} {addresses others : List (List Nat)}
    (h : tree.Preorder addresses) (hOthers : tree.Preorder others) : addresses = others := by
  have : Std.Antisymm fun first second : List Nat => first < second :=
    ⟨fun _ _ hLess hGreater => absurd hGreater (List.lt_asymm hLess)⟩
  have : Std.Irrefl fun first second : List Nat => first < second := ⟨List.lt_irrefl⟩
  apply h.sorted.eq_of_mem_iff hOthers.sorted
  intro address
  rw [h.complete, hOthers.complete]

end

end TwoPass.Macro
