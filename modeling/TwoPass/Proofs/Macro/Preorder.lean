import Mathlib.Data.List.Forall2
import TwoPass.Proofs.Macro.Reading
import TwoPass.Proofs.Macro.Substitution
import TwoPass.Proofs.Macro.Tree

/-! Expansion as the preorder of a tree, with the tree told by the forms of its lines. A line is a
call if it is written as one, and the lines below it are those of the body of its macro with the
arguments put in by position. What finds calls and what replaces parameters while a line is expanded
has no part in this. -/
namespace TwoPass

/-- Every leftmost occurrence of a pattern has given way to a replacement. -/
inductive Text.Replaced (pattern replacement : Text) : Text → Text → Prop where
  | done : Replaced pattern replacement [] []
  | found {s t : Text} (rest : Replaced pattern replacement s t) :
      Replaced pattern replacement (pattern ++ s) (replacement ++ t)
  | kept {c : Char} {s t : Text} (hNot : ¬pattern <+: c :: s)
      (rest : Replaced pattern replacement s t) : Replaced pattern replacement (c :: s) (c :: t)

/-- Replacing goes from the left and does not look into what it has put in. -/
theorem Text.replaced_replaceAll {pattern : Text} (h : pattern ≠ []) (replacement s : Text) :
    Replaced pattern replacement s (replaceAll pattern replacement s) := by
  induction hLength : s.length using Nat.strongRecOn generalizing s with
  | ind length ih =>
      by_cases hPrefix : pattern <+: s
      · obtain ⟨rest, rfl⟩ := hPrefix
        have hPattern := List.length_pos_iff.mpr h
        rw [replaceAll_append_self h]
        exact .found (ih rest.length (by rw [← hLength, List.length_append]; omega) rest rfl)
      · cases s with
        | nil =>
            rw [replaceAll_nil]
            exact .done
        | cons c rest =>
            rw [replaceAll_cons h hPrefix]
            have hShorter : rest.length < length := by rw [← hLength, List.length_cons]; omega
            exact .kept hPrefix (ih rest.length hShorter rest rfl)

/-- This says all about replacing. -/
theorem Text.replaced_iff {pattern replacement s t : Text} (h : pattern ≠ []) :
    Replaced pattern replacement s t ↔ replaceAll pattern replacement s = t := by
  constructor
  · intro hReplaced
    induction hReplaced with
    | done => exact replaceAll_nil pattern replacement
    | found rest ih => rw [replaceAll_append_self h, ih]
    | kept hNot rest ih => rw [replaceAll_cons h hNot, ih]
  · rintro rfl
    exact replaced_replaceAll h replacement s

namespace Macro

/-- A line of a body in which parameters have given way to arguments, one pair after the other. A
parameter without a name stands nowhere. -/
inductive Filled : List (Text × Text) → Text → Text → Prop where
  | done (line : Text) : Filled [] line line
  | nameless {argument line text : Text} {pairs : List (Text × Text)}
      (others : Filled pairs line text) : Filled (([], argument) :: pairs) line text
  | named {parameter argument line between text : Text} {pairs : List (Text × Text)}
      (hName : parameter ≠ []) (first : Text.Replaced parameter argument line between)
      (others : Filled pairs between text) : Filled ((parameter, argument) :: pairs) line text

/-- Parameters are filled in one after another. -/
theorem filled_iff {pairs : List (Text × Text)} {line text : Text} :
    Filled pairs line text ↔ substitute pairs line = text := by
  constructor
  · intro h
    induction h with
    | done => rfl
    | nameless others ih => exact ih
    | named hName first others ih =>
        rw [← ih, ← (Text.replaced_iff hName).mp first]
        rfl
  · rintro rfl
    induction pairs generalizing line with
    | nil => exact .done line
    | cons pair others ih =>
        obtain ⟨parameter, argument⟩ := pair
        by_cases hName : parameter = []
        · subst hName
          exact .nameless ih
        · exact .named hName (Text.replaced_replaceAll hName argument line) ih

/-- A line is written as this call, of this macro of the table. -/
def Calls (macros : MacroTable) (line : Text) (call : Call) (m : Macro) : Prop :=
  call.Written (stripComment line) ∧ macros.get? call.name = some m

/-- The tree of a line by its nodes: the line at each address. The first number of an address says
which line of the body to go to; the others go on from there. -/
inductive NodeAt (macros : MacroTable) : Text → List Nat → Text → Prop where
  | root (line : Text) : NodeAt macros line [] line
  | child {line written inner text : Text} {call : Call} {m : Macro} {i : Nat} {rest : List Nat}
      (hCalls : Calls macros line call m) (hBody : m.body[i]? = some written)
      (hFilled : Filled (m.parameters.zip call.arguments) written inner)
      (hRest : NodeAt macros inner rest text) : NodeAt macros line (i :: rest) text

/-- There is a call at an address of the tree. The calls above it are open around it, so at an
address of length `n` it is the last one in a chain of `n + 1` calls. -/
def CallAt (macros : MacroTable) (line : Text) (address : List Nat) (call : Call) (m : Macro) :
    Prop :=
  ∃ text, NodeAt macros line address text ∧ Calls macros text call m

/-- No chain of calls, each in the body of the one in front of it, is longer than the limit. -/
def ChainsWithin (macros : MacroTable) (line : Text) (limit : Nat) : Prop :=
  ∀ address call m, CallAt macros line address call m → address.length + 1 ≤ limit

/-- The lines that a node stands for by itself. -/
inductive Shows (macros : MacroTable) (text : Text) : List Text → Prop where
  | plain (hPlain : ¬Invokes macros text) : Shows macros text [text]
  | call {name : Text} {arguments : List Text} {m : Macro}
      (hCalls : Calls macros text ⟨none, name, arguments⟩ m) : Shows macros text ['#' :: text]
  | labelled {label name : Text} {arguments : List Text} {m : Macro}
      (hCalls : Calls macros text ⟨some label, name, arguments⟩ m) :
      Shows macros text ['#' :: text, label ++ [':']]

/-- Lines that list the tree: what its nodes show, in the order of their addresses. In the
lexicographic order a node comes in front of all that is below it, and that in front of the nodes
beside it, which is the preorder. Only a finite tree can be listed. -/
structure Lists (macros : MacroTable) (line : Text) (addresses : List (List Nat))
    (shown : List (List Text)) : Prop where
  sorted : addresses.Pairwise (· < ·)
  complete : ∀ address, address ∈ addresses ↔ ∃ text, NodeAt macros line address text
  shows : List.Forall₂ (fun address lines =>
    ∃ text, NodeAt macros line address text ∧ Shows macros text lines) addresses shown

/-- The first call in preorder among those that have the given number of others around them. -/
structure FirstCallAt (macros : MacroTable) (line : Text) (depth : Nat) (address : List Nat)
    (m : Macro) : Prop where
  depth_eq : address.length = depth
  call : ∃ call, CallAt macros line address call m
  first : ∀ earlier < address, earlier.length = depth →
    ∀ call m, ¬CallAt macros line earlier call m

section

variable {macros : MacroTable} {line text : Text} {address : List Nat} {call : Call} {m : Macro}
  {depth : Nat}

/-- A call is of a macro that is in the table. -/
theorem calls_iff : Calls macros line call m ↔ callOf? macros line = some (call, m) := by
  rw [callOf?_eq_some_iff, call?_eq_some_iff, Calls]

/-- By induction on the address, from the root in one direction and by the steps in the other. -/
theorem nodeAt_iff :
    NodeAt macros line address text ↔ expansionTree macros line address = some text := by
  constructor
  · intro h
    induction h with
    | root line => rfl
    | child hCalls hBody hFilled hRest ih =>
        rw [expansionTree_cons (calls_iff.mp hCalls), forest, bodyFor, List.getElem?_map, hBody,
          Option.map_some, filled_iff.mp hFilled]
        exact ih
  · intro h
    induction address generalizing line with
    | nil =>
        cases h
        exact .root _
    | cons i rest ih =>
        cases hCall : callOf? macros line with
        | none =>
            rw [expansionTree_leaf hCall] at h
            cases h
        | some called =>
            obtain ⟨call, m⟩ := called
            rw [expansionTree_cons hCall, forest] at h
            obtain ⟨inner, hInner, hRest⟩ := Option.bind_eq_some_iff.mp h
            rw [bodyFor, List.getElem?_map] at hInner
            obtain ⟨written, hBody, hFilled⟩ := Option.map_eq_some_iff.mp hInner
            exact .child (calls_iff.mpr hCall) hBody (filled_iff.mpr hFilled) (ih hRest)

theorem callAt_iff : CallAt macros line address call m ↔
    (expansionTree macros line).callAt macros address = some (call, m) := by
  simp only [CallAt, nodeAt_iff, calls_iff, Tree.callAt, Option.bind_eq_some_iff]

/-- What a node shows depends on its text only. -/
theorem shows_iff {lines : List Text} (h : expansionTree macros line address = some text) :
    Shows macros text lines ↔ lines = (expansionTree macros line).shownAt macros address := by
  rw [Tree.shownAt, h]
  dsimp only
  cases hCall : callOf? macros text with
  | none =>
      constructor
      · intro hShows
        cases hShows with
        | plain => rfl
        | call hCalls | labelled hCalls => simp [calls_iff.mp hCalls] at hCall
      · rintro rfl
        exact .plain (callOf?_eq_none_iff.mp hCall)
  | some called =>
      obtain ⟨⟨label, name, arguments⟩, m⟩ := called
      constructor
      · intro hShows
        cases hShows with
        | plain hPlain => simp [callOf?_eq_none_iff.mpr hPlain] at hCall
        | call hCalls | labelled hCalls =>
            rw [calls_iff.mp hCalls] at hCall
            cases hCall
            rfl
      · cases label with
        | none =>
            rintro rfl
            exact .call (calls_iff.mpr hCall)
        | some label =>
            rintro rfl
            exact .labelled (calls_iff.mpr hCall)

/-- Each node shows what stands at its address in the tree that is computed. -/
theorem lists_iff {addresses : List (List Nat)} {shown : List (List Text)} :
    Lists macros line addresses shown ↔ (expansionTree macros line).Preorder addresses ∧
      shown = addresses.map ((expansionTree macros line).shownAt macros) := by
  have hNode : ∀ address, (∃ text, NodeAt macros line address text) ↔
      (expansionTree macros line address).isSome = true := by
    intro address
    simp only [nodeAt_iff, Option.isSome_iff_exists]
  constructor
  · rintro ⟨hSorted, hComplete, hShows⟩
    refine ⟨⟨hSorted, fun address => (hComplete address).trans (hNode address)⟩, ?_⟩
    have hEach : List.Forall₂ (fun address lines =>
        (expansionTree macros line).shownAt macros address = lines) addresses shown := by
      refine hShows.imp ?_
      rintro address lines ⟨text, hText, hLines⟩
      exact ((shows_iff (nodeAt_iff.mp hText)).mp hLines).symm
    have hMap := List.forall₂_map_left_iff.mpr hEach
    rw [List.forall₂_eq_eq_eq] at hMap
    exact hMap.symm
  · rintro ⟨hOrder, rfl⟩
    have hComplete : ∀ address, address ∈ addresses ↔ ∃ text, NodeAt macros line address text :=
      fun address => (hOrder.complete address).trans (hNode address).symm
    refine ⟨hOrder.sorted, hComplete, ?_⟩
    rw [List.forall₂_map_right_iff, List.forall₂_same]
    intro address hMem
    obtain ⟨text, hText⟩ := (hComplete address).mp hMem
    exact ⟨text, hText, (shows_iff (nodeAt_iff.mp hText)).mpr rfl⟩

/-- The first call at a depth is the first in the order of addresses. -/
theorem firstCallAt_iff : FirstCallAt macros line depth address m ↔
    (expansionTree macros line).FirstCall macros depth address m := by
  constructor
  · rintro ⟨hDepth, ⟨call, hCall⟩, hFirst⟩
    refine ⟨hDepth, ⟨call, callAt_iff.mp hCall⟩, fun earlier hLess hLength => ?_⟩
    rw [Option.eq_none_iff_forall_ne_some]
    rintro ⟨other, otherMacro⟩ hOther
    exact hFirst earlier hLess hLength other otherMacro (callAt_iff.mpr hOther)
  · rintro ⟨hDepth, ⟨call, hCall⟩, hFirst⟩
    refine ⟨hDepth, ⟨call, callAt_iff.mpr hCall⟩, fun earlier hLess hLength other m' hOther => ?_⟩
    rw [callAt_iff, hFirst earlier hLess hLength] at hOther
    cases hOther

/-- Where no call has a number of others around it, none has more. -/
theorem chainsWithin_of_shallow
    (shallow : ∀ address, address.length = depth →
      (expansionTree macros line).callAt macros address = none) :
    ChainsWithin macros line depth := by
  intro address call m hCall
  by_contra hLong
  have hSome : ((expansionTree macros line).callAt macros address).isSome = true := by
    rw [callAt_iff.mp hCall]
    rfl
  have hAbove := isSome_callAt_take (by omega : depth ≤ address.length) hSome
  rw [shallow _ (by simp; omega)] at hAbove
  cases hAbove

end

/-- Expansion succeeds exactly on lines whose tree has no chain of more than 64 calls, and lists
such a tree in preorder. Otherwise it names the macro of the first call that has 64 others around
it. -/
theorem expand_lists_preorder (macros : MacroTable) (line : Text) :
    ((∃ out, (expand macros line).result = .ok out) ↔ ChainsWithin macros line 64) ∧
    (∀ out, (expand macros line).result = .ok out ↔ ChainsWithin macros line 64 ∧
      ∃ addresses shown, Lists macros line addresses shown ∧ out = shown.flatten) ∧
    (¬ChainsWithin macros line 64 →
      ∃ address m, FirstCallAt macros line 64 address m ∧
        (expand macros line).result = .error (.macroRecursion m.name 64)) := by
  have hOutcome : Outcome macros (expansionTree macros line) 64 (expand macros line).result :=
    outcome_expandWithin macros depthLimit line
  generalize (expand macros line).result = result at hOutcome
  cases hOutcome with
  | @listed addresses order shallow =>
      have hChains := chainsWithin_of_shallow shallow
      refine ⟨⟨fun _ => hChains, fun _ => ⟨_, rfl⟩⟩, ?_, fun hLong => absurd hChains hLong⟩
      intro out
      rw [Except.ok.injEq, List.flatMap_def]
      constructor
      · rintro rfl
        exact ⟨hChains, addresses, _, lists_iff.mpr ⟨order, rfl⟩, rfl⟩
      · rintro ⟨-, others, shown, hLists, rfl⟩
        obtain ⟨hOthers, rfl⟩ := lists_iff.mp hLists
        rw [order.unique hOthers]
  | @runaway address m first =>
      have hLong : ¬ChainsWithin macros line 64 := by
        intro hChains
        obtain ⟨call, hCall⟩ := first.call
        have hShort := hChains address call m (callAt_iff.mpr hCall)
        have hDepth := first.depth_eq
        omega
      refine ⟨⟨?_, fun hChains => absurd hChains hLong⟩, fun out => ⟨?_, ?_⟩,
        fun _ => ⟨address, m, firstCallAt_iff.mpr first, rfl⟩⟩
      · rintro ⟨out, h⟩
        cases h
      · intro h
        cases h
      · rintro ⟨hChains, -⟩
        exact absurd hChains hLong

/-- A macro that calls another one with what it is given, and one that calls itself. -/
def nesting : MacroTable :=
  ⟨[("twice".toList, ⟨"twice".toList, ["reg".toList, "by".toList],
      ["inc(reg, by)", "at: inc(reg, by) # by"].map String.toList⟩),
    ("inc".toList, ⟨"inc".toList, ["dst".toList, "n".toList], ["add dst, r0, n".toList]⟩),
    ("spin".toList, ⟨"spin".toList, ["x".toList], ["mov r1, x".toList, "spin(x)".toList]⟩)]⟩

def nestingLines : List Text :=
  ["#go: twice(r2, 7)", "go:", "#inc(r2, 7)", "add r2, r0, 7", "#at: inc(r2, 7) # 7", "at:",
    "add r2, r0, 7"].map String.toList

/-- The second line of the body of `twice` has its parameters replaced in the comment too. The
call of `spin` is inside itself, and no number of calls is enough for it. -/
theorem expand_lists_preorder_nesting :
    (expand nesting "go: twice(r2, 7)".toList).result = .ok nestingLines ∧
      ChainsWithin nesting "go: twice(r2, 7)".toList 64 ∧
      (∃ addresses shown, Lists nesting "go: twice(r2, 7)".toList addresses shown ∧
        nestingLines = shown.flatten) ∧
      NodeAt nesting "go: twice(r2, 7)".toList [1] "at: inc(r2, 7) # 7".toList ∧
      NodeAt nesting "go: twice(r2, 7)".toList [1, 0] "add r2, r0, 7".toList ∧
      (expand nesting "spin(1)".toList).result = .error (.macroRecursion "spin".toList 64) ∧
      ¬ChainsWithin nesting "spin(1)".toList 64 ∧
      ∃ address m, FirstCallAt nesting "spin(1)".toList 64 address m ∧ m.name = "spin".toList := by
  have hExpand : (expand nesting "go: twice(r2, 7)".toList).result = .ok nestingLines := by
    decide +kernel
  have hSpin : (expand nesting "spin(1)".toList).result =
      .error (.macroRecursion "spin".toList 64) := by decide +kernel
  obtain ⟨-, hListed, -⟩ := expand_lists_preorder nesting "go: twice(r2, 7)".toList
  obtain ⟨hSucceeds, -, hRunaway⟩ := expand_lists_preorder nesting "spin(1)".toList
  have hLong : ¬ChainsWithin nesting "spin(1)".toList 64 := by
    intro hChains
    obtain ⟨out, hOut⟩ := hSucceeds.mpr hChains
    rw [hSpin] at hOut
    cases hOut
  obtain ⟨hChains, hLists⟩ := (hListed nestingLines).mp hExpand
  obtain ⟨address, m, hFirst, hError⟩ := hRunaway hLong
  rw [hSpin] at hError
  refine ⟨hExpand, hChains, hLists, nodeAt_iff.mpr (by decide +kernel),
    nodeAt_iff.mpr (by decide +kernel), hSpin, hLong, address, m, hFirst, ?_⟩
  simpa using hError.symm

end Macro

end TwoPass
