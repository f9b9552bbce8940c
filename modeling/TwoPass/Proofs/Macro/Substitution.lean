import Mathlib.Data.List.Induction
import Mathlib.Data.List.Pairwise
import TwoPass.Macro.Basic

/-! Parameters that do not get in each other's way. They are replaced one after the other, so a
later parameter is also looked for in what earlier arguments have put in, and where an argument
meets the text around it. If no character of a parameter occurs in another parameter or in its
argument, it is not found there. Then all parameters might as well be replaced at once, in the
line as it was. -/
namespace TwoPass

namespace Text

section Replacement

variable {pattern replacement s t : Text} {c : Char}

/-- Characters to skip are those of the pattern just replaced. -/
theorem replaceFrom_eq_drop (pattern replacement : Text) (skip : Nat) (s : Text) :
    replaceFrom pattern replacement skip s = replaceFrom pattern replacement 0 (s.drop skip) := by
  induction skip generalizing s with
  | zero => rfl
  | succ skip ih =>
      cases s with
      | nil => rfl
      | cons c rest => exact ih rest

theorem replaceAll_eq (h : pattern ≠ []) :
    replaceAll pattern replacement s = replaceFrom pattern replacement 0 s := by
  rw [replaceAll, if_neg (by simpa using h)]

theorem replaceAll_nil (pattern replacement : Text) : replaceAll pattern replacement [] = [] := by
  unfold replaceAll
  split <;> rfl

/-- A pattern in front is replaced, and replacing goes on behind it. -/
theorem replaceAll_append_self (h : pattern ≠ []) (replacement s : Text) :
    replaceAll pattern replacement (pattern ++ s) =
      replacement ++ replaceAll pattern replacement s := by
  obtain ⟨first, others, rfl⟩ := List.exists_cons_of_ne_nil h
  have hPrefix : (first :: others).isPrefixOf (first :: (others ++ s)) = true :=
    List.isPrefixOf_iff_prefix.mpr (List.prefix_append (first :: others) s)
  rw [replaceAll_eq h, replaceAll_eq h, List.cons_append, replaceFrom, if_pos hPrefix,
    replaceFrom_eq_drop, List.length_cons, Nat.add_sub_cancel, List.drop_left]

/-- A character at which no pattern starts is kept. -/
theorem replaceAll_cons (h : pattern ≠ []) (hNot : ¬pattern <+: c :: s) (replacement : Text) :
    replaceAll pattern replacement (c :: s) = c :: replaceAll pattern replacement s := by
  rw [replaceAll_eq h, replaceAll_eq h, replaceFrom,
    if_neg (fun hPrefix => hNot (List.isPrefixOf_iff_prefix.mp hPrefix))]

/-- A pattern does not start at a character that it does not have. -/
theorem not_isPrefix_of_not_mem (h : pattern ≠ []) (hc : c ∉ pattern) (s : Text) :
    ¬pattern <+: c :: s := by
  obtain ⟨first, others, rfl⟩ := List.exists_cons_of_ne_nil h
  intro hPrefix
  rw [List.cons_prefix_cons] at hPrefix
  exact hc (by simp [hPrefix.1])

/-- No pattern starts inside a text that shares no character with it. -/
theorem not_isPrefix_drop_of_not_mem (h : pattern ≠ []) (hApart : ∀ c ∈ t, c ∉ pattern) (s : Text)
    {start : Nat} (hStart : start < t.length) : ¬pattern <+: (t ++ s).drop start := by
  rw [List.drop_append_of_le_length (Nat.le_of_lt hStart), List.drop_eq_getElem_cons hStart,
    List.cons_append]
  exact not_isPrefix_of_not_mem h (hApart _ (List.getElem_mem hStart)) _

/-- So such a text is kept as a whole. -/
theorem replaceAll_append_of_not_mem (h : pattern ≠ []) (hApart : ∀ c ∈ t, c ∉ pattern)
    (replacement s : Text) :
    replaceAll pattern replacement (t ++ s) = t ++ replaceAll pattern replacement s := by
  induction t with
  | nil => rfl
  | cons c t ih =>
      have hNot := not_isPrefix_of_not_mem h (hApart c (by simp)) (t ++ s)
      have hRest := ih fun d hMem => hApart d (by simp [hMem])
      rw [List.cons_append, replaceAll_cons h hNot, hRest, List.cons_append]

end Replacement

/-- Where the leftmost occurrences of a pattern start that do not overlap. An occurrence is left out
only if it overlaps one that starts in front of it. -/
structure Leftmost (pattern line : Text) (starts : List Nat) : Prop where
  found : ∀ start ∈ starts, pattern <+: line.drop start
  apart : starts.Pairwise fun first second => first + pattern.length ≤ second
  covers : ∀ start, pattern <+: line.drop start →
    ∃ first ∈ starts, first ≤ start ∧ start < first + pattern.length

namespace Leftmost

variable {pattern line s : Text} {starts : List Nat}

theorem nil (h : pattern ≠ []) : Leftmost pattern [] [] := by
  refine ⟨by simp, .nil, ?_⟩
  intro start hPrefix
  rw [List.drop_nil, List.prefix_nil] at hPrefix
  exact absurd hPrefix h

theorem drop_add (s line : Text) (start : Nat) :
    (s ++ line).drop (start + s.length) = line.drop start := by
  rw [Nat.add_comm, List.drop_append]
  simp

/-- Occurrences stay apart when the line is moved. -/
theorem apart_shift (h : starts.Pairwise fun first second => first + pattern.length ≤ second)
    (shift : Nat) :
    (starts.map (· + shift)).Pairwise fun first second => first + pattern.length ≤ second := by
  rw [List.pairwise_map]
  exact h.imp fun hApart => by omega

theorem apart_unshift {shift : Nat}
    (h : (starts.map (· + shift)).Pairwise fun first second => first + pattern.length ≤ second) :
    starts.Pairwise fun first second => first + pattern.length ≤ second := by
  rw [List.pairwise_map] at h
  exact h.imp fun hApart => by omega

/-- The occurrences behind a text in which none starts. -/
theorem skip (h : Leftmost pattern line starts)
    (hNone : ∀ start < s.length, ¬pattern <+: (s ++ line).drop start) :
    Leftmost pattern (s ++ line) (starts.map (· + s.length)) := by
  refine ⟨?_, apart_shift h.apart s.length, ?_⟩
  · intro start hMem
    obtain ⟨inner, hInner, rfl⟩ := List.mem_map.mp hMem
    rw [drop_add]
    exact h.found inner hInner
  · intro start hPrefix
    have hBehind : s.length ≤ start := by
      by_contra hLess
      exact hNone start (by omega) hPrefix
    obtain ⟨inner, rfl⟩ := Nat.exists_eq_add_of_le' hBehind
    rw [drop_add] at hPrefix
    obtain ⟨first, hMem, hLe, hLt⟩ := h.covers inner hPrefix
    exact ⟨first + s.length, List.mem_map_of_mem hMem, by omega, by omega⟩

/-- An occurrence and those behind it. -/
theorem take (h : Leftmost pattern line starts) :
    Leftmost pattern (pattern ++ line) (0 :: starts.map (· + pattern.length)) := by
  refine ⟨?_, ?_, ?_⟩
  · intro start hMem
    rcases List.mem_cons.mp hMem with rfl | hMem
    · exact List.prefix_append pattern line
    · obtain ⟨inner, hInner, rfl⟩ := List.mem_map.mp hMem
      rw [drop_add]
      exact h.found inner hInner
  · rw [List.pairwise_cons]
    refine ⟨?_, apart_shift h.apart pattern.length⟩
    intro start hMem
    obtain ⟨inner, -, rfl⟩ := List.mem_map.mp hMem
    omega
  · intro start hPrefix
    by_cases hInside : start < pattern.length
    · exact ⟨0, by simp, by omega, by omega⟩
    · obtain ⟨inner, rfl⟩ := Nat.exists_eq_add_of_le' (Nat.le_of_not_lt hInside)
      rw [drop_add] at hPrefix
      obtain ⟨first, hMem, hLe, hLt⟩ := h.covers inner hPrefix
      exact ⟨first + pattern.length, List.mem_cons_of_mem 0 (List.mem_map_of_mem hMem), by omega,
        by omega⟩

/-- Occurrences behind a text without any are those of the rest. -/
theorem of_skip (h : Leftmost pattern (s ++ line) (starts.map (· + s.length))) :
    Leftmost pattern line starts := by
  refine ⟨?_, apart_unshift h.apart, ?_⟩
  · intro start hMem
    have hFound := h.found (start + s.length) (List.mem_map_of_mem hMem)
    rwa [drop_add] at hFound
  · intro start hPrefix
    rw [← drop_add s line start] at hPrefix
    obtain ⟨first, hMem, hLe, hLt⟩ := h.covers _ hPrefix
    obtain ⟨inner, hInner, rfl⟩ := List.mem_map.mp hMem
    exact ⟨inner, hInner, by omega, by omega⟩

/-- Behind the first occurrence, the others are those of the rest. -/
theorem of_take (h : Leftmost pattern (pattern ++ line) (0 :: starts.map (· + pattern.length))) :
    Leftmost pattern line starts := by
  refine ⟨?_, apart_unshift (List.pairwise_cons.mp h.apart).2, ?_⟩
  · intro start hMem
    have hFound := h.found (start + pattern.length)
      (List.mem_cons_of_mem 0 (List.mem_map_of_mem hMem))
    rwa [drop_add] at hFound
  · intro start hPrefix
    rw [← drop_add pattern line start] at hPrefix
    obtain ⟨first, hMem, hLe, hLt⟩ := h.covers _ hPrefix
    rcases List.mem_cons.mp hMem with rfl | hMem
    · omega
    · obtain ⟨inner, hInner, rfl⟩ := List.mem_map.mp hMem
      exact ⟨inner, hInner, by omega, by omega⟩

end Leftmost

end Text

namespace Macro

/-- No character of either parameter occurs in the other pair. Its own argument may have it. -/
def Apart (first second : Text × Text) : Prop :=
  (∀ c ∈ first.1, c ∉ second.1 ∧ c ∉ second.2) ∧ ∀ c ∈ second.1, c ∉ first.1 ∧ c ∉ first.2

instance : Std.Symm Apart := ⟨fun _ _ hApart => ⟨hApart.2, hApart.1⟩⟩

/-- Parameters with their arguments that do not get in each other's way. -/
structure Distinctive (pairs : List (Text × Text)) : Prop where
  nonempty : ∀ pair ∈ pairs, pair.1 ≠ [] ∧ pair.2 ≠ []
  apart : pairs.Pairwise Apart

/-- A piece of a line: a character that stays, or a parameter with its argument. -/
inductive Piece where
  | kept (c : Char)
  | parameter (pair : Text × Text)
  deriving DecidableEq

namespace Piece

def original : Piece → Text
  | kept c => [c]
  | parameter pair => pair.1

def replaced : Piece → Text
  | kept c => [c]
  | parameter pair => pair.2

/-- Where a parameter stands in the line that is made of the pieces. -/
def startsOf (pair : Text × Text) : List Piece → List Nat
  | [] => []
  | piece :: rest =>
    (if piece = parameter pair then [0] else []) ++
      (startsOf pair rest).map (· + piece.original.length)

end Piece

/-- A line cut up so that all parameters can be replaced at once. The pieces that are parameters are
the leftmost occurrences of each parameter in the line that do not overlap. -/
structure Simultaneous (pairs : List (Text × Text)) (line : Text) (pieces : List Piece) : Prop where
  spells : pieces.flatMap Piece.original = line
  known : ∀ pair, .parameter pair ∈ pieces → pair ∈ pairs
  leftmost : ∀ pair ∈ pairs, Text.Leftmost pair.1 line (Piece.startsOf pair pieces)

/-- A line cut up from the left: a parameter is taken wherever one begins. -/
inductive Cuts (pairs : List (Text × Text)) : Text → List Piece → Prop where
  | done : Cuts pairs [] []
  | parameter {pair : Text × Text} {rest : Text} {pieces : List Piece} (hMem : pair ∈ pairs)
      (hRest : Cuts pairs rest pieces) : Cuts pairs (pair.1 ++ rest) (.parameter pair :: pieces)
  | kept {c : Char} {rest : Text} {pieces : List Piece}
      (hNone : ∀ pair ∈ pairs, ¬pair.1 <+: c :: rest) (hRest : Cuts pairs rest pieces) :
      Cuts pairs (c :: rest) (.kept c :: pieces)

section

variable {pairs : List (Text × Text)} {line : Text} {pieces : List Piece} {pair : Text × Text}

namespace Distinctive

/-- Two different parameters do not touch each other. -/
theorem apart_of_ne (h : Distinctive pairs) {first second : Text × Text} (hFirst : first ∈ pairs)
    (hSecond : second ∈ pairs) (hNe : first ≠ second) : Apart first second :=
  h.apart.forall hFirst hSecond hNe

/-- The order of the parameters does not matter for being distinctive. -/
theorem perm {order : List (Text × Text)} (h : Distinctive pairs) (hPerm : order.Perm pairs) :
    Distinctive order :=
  ⟨fun pair hMem => h.nonempty pair (hPerm.mem_iff.mp hMem),
    (hPerm.pairwise_iff fun hApart => symm hApart).mpr h.apart⟩

/-- Fewer parameters are distinctive as well. -/
theorem init (h : Distinctive (pairs ++ [pair])) : Distinctive pairs :=
  ⟨fun other hMem => h.nonempty other (by simp [hMem]), (List.pairwise_append.mp h.apart).1⟩

theorem apart_last (h : Distinctive (pairs ++ [pair])) : ∀ other ∈ pairs, Apart other pair :=
  fun other hMem => (List.pairwise_append.mp h.apart).2.2 other hMem pair (by simp)

end Distinctive

namespace Cuts

/-- Every line can be cut up, because parameters are not empty. -/
theorem exists_cuts (h : ∀ pair ∈ pairs, pair.1 ≠ []) (line : Text) :
    ∃ pieces, Cuts pairs line pieces := by
  induction hLength : line.length using Nat.strongRecOn generalizing line with
  | ind length ih =>
      by_cases hFound : ∃ pair ∈ pairs, pair.1 <+: line
      · obtain ⟨pair, hMem, rest, rfl⟩ := hFound
        have hPositive : 0 < pair.1.length := List.length_pos_iff.mpr (h pair hMem)
        have hShorter : rest.length < length := by
          rw [← hLength, List.length_append]
          omega
        obtain ⟨pieces, hRest⟩ := ih _ hShorter rest rfl
        exact ⟨.parameter pair :: pieces, .parameter hMem hRest⟩
      · cases line with
        | nil => exact ⟨[], .done⟩
        | cons c rest =>
            have hShorter : rest.length < length := by
              rw [← hLength, List.length_cons]
              omega
            obtain ⟨pieces, hRest⟩ := ih _ hShorter rest rfl
            exact ⟨.kept c :: pieces,
              .kept (fun pair hMem hPrefix => hFound ⟨pair, hMem, hPrefix⟩) hRest⟩

/-- Nor for a cut. -/
theorem perm {order : List (Text × Text)} (h : Cuts pairs line pieces) (hPerm : order.Perm pairs) :
    Cuts order line pieces := by
  induction h with
  | done => exact .done
  | parameter hMem _ ih => exact .parameter (hPerm.mem_iff.mpr hMem) ih
  | kept hNone _ ih => exact .kept (fun pair hMem => hNone pair (hPerm.mem_iff.mp hMem)) ih

/-- Characters that no parameter has are kept. -/
theorem append_kept {rest t : Text} (h : Cuts pairs rest pieces)
    (hNonempty : ∀ pair ∈ pairs, pair.1 ≠ []) (hApart : ∀ c ∈ t, ∀ pair ∈ pairs, c ∉ pair.1) :
    Cuts pairs (t ++ rest) (t.map .kept ++ pieces) := by
  induction t with
  | nil => exact h
  | cons c t ih =>
      refine .kept ?_ (ih fun d hMem => hApart d (by simp [hMem]))
      intro pair hMem
      exact Text.not_isPrefix_of_not_mem (hNonempty pair hMem) (hApart c (by simp) pair hMem) _

/-- No occurrence arises across a seam: a pattern that shares no character with the arguments begins
only where it began before. -/
theorem isPrefix_of_replaced {pattern : Text} (h : Cuts pairs line pieces)
    (hNonempty : ∀ pair ∈ pairs, pair.2 ≠ []) (hApart : ∀ c ∈ pattern, ∀ pair ∈ pairs, c ∉ pair.2)
    (hPrefix : pattern <+: pieces.flatMap Piece.replaced) : pattern <+: line := by
  induction h generalizing pattern with
  | done => exact hPrefix
  | @parameter pair rest pieces hMem _ _ =>
      -- The argument has a first character, which the pattern does not have.
      cases pattern with
      | nil => exact List.nil_prefix
      | cons first others =>
          obtain ⟨c, t, hArgument⟩ := List.exists_cons_of_ne_nil (hNonempty pair hMem)
          have hText : (Piece.parameter pair :: pieces).flatMap Piece.replaced =
              c :: (t ++ pieces.flatMap Piece.replaced) := by
            rw [List.flatMap_cons, Piece.replaced, hArgument, List.cons_append]
          rw [hText, List.cons_prefix_cons] at hPrefix
          exact absurd (by simp [hArgument, hPrefix.1]) (hApart first (by simp) pair hMem)
  | @kept c rest pieces _ _ ih =>
      cases pattern with
      | nil => exact List.nil_prefix
      | cons first others =>
          have hText : (Piece.kept c :: pieces).flatMap Piece.replaced =
              c :: pieces.flatMap Piece.replaced := rfl
          rw [hText, List.cons_prefix_cons] at hPrefix
          rw [List.cons_prefix_cons]
          exact ⟨hPrefix.1, ih (fun d hMem => hApart d (by simp [hMem])) hPrefix.2⟩

/-- The last parameter is replaced in a text in which the others are replaced already. -/
theorem exists_init (h : Cuts (pairs ++ [pair]) line pieces)
    (hDistinctive : Distinctive (pairs ++ [pair])) :
    ∃ others, Cuts pairs line others ∧
      Text.replaceAll pair.1 pair.2 (others.flatMap Piece.replaced) =
        pieces.flatMap Piece.replaced := by
  have hInit := hDistinctive.init
  have hApart := hDistinctive.apart_last
  have hPattern : pair.1 ≠ [] := (hDistinctive.nonempty pair (by simp)).1
  induction h with
  | done => exact ⟨[], .done, Text.replaceAll_nil pair.1 pair.2⟩
  | @parameter found rest pieces hMem _ ih =>
      obtain ⟨others, hOthers, hText⟩ := ih
      rcases List.mem_append.mp hMem with hMem | hLast
      · refine ⟨.parameter found :: others, .parameter hMem hOthers, ?_⟩
        have hArgument : ∀ c ∈ found.2, c ∉ pair.1 :=
          fun c hc hPair => ((hApart found hMem).2 c hPair).2 hc
        rw [List.flatMap_cons, List.flatMap_cons, Piece.replaced,
          Text.replaceAll_append_of_not_mem hPattern hArgument, hText]
      · rw [List.mem_singleton] at hLast
        subst hLast
        have hKept := hOthers.append_kept (t := found.1)
          (fun other hMem => (hInit.nonempty other hMem).1)
          fun c hc other hMem => ((hApart other hMem).2 c hc).1
        refine ⟨_, hKept, ?_⟩
        have hSame : (found.1.map Piece.kept).flatMap Piece.replaced = found.1 := by
          rw [List.flatMap_map]
          exact List.flatMap_singleton' found.1
        rw [List.flatMap_append, hSame, Text.replaceAll_append_self hPattern, hText,
          List.flatMap_cons, Piece.replaced]
  | @kept c rest pieces hNone _ ih =>
      obtain ⟨others, hOthers, hText⟩ := ih
      have hKept : Cuts pairs (c :: rest) (.kept c :: others) :=
        .kept (fun other hMem => hNone other (by simp [hMem])) hOthers
      refine ⟨_, hKept, ?_⟩
      have hNot : ¬pair.1 <+: c :: others.flatMap Piece.replaced := by
        intro hPrefix
        refine hNone pair (by simp) (hKept.isPrefix_of_replaced
          (fun other hMem => (hInit.nonempty other hMem).2) ?_ hPrefix)
        exact fun d hd other hMem => ((hApart other hMem).2 d hd).2
      have hFirst : (Piece.kept c :: others).flatMap Piece.replaced =
          c :: others.flatMap Piece.replaced := rfl
      rw [hFirst, Text.replaceAll_cons hPattern hNot, hText]
      rfl

/-- Replacing one after the other gives what replacing at once gives. The induction takes the last
pair off, since the others are replaced before it. -/
theorem substitute_eq (h : Cuts pairs line pieces) (hDistinctive : Distinctive pairs) :
    substitute pairs line = pieces.flatMap Piece.replaced := by
  induction pairs using List.reverseRecOn generalizing pieces with
  | nil =>
      change line = pieces.flatMap Piece.replaced
      induction h with
      | done => rfl
      | parameter hMem => cases hMem
      | kept _ _ ih => exact congrArg _ ih
  | append_singleton pairs pair ih =>
      obtain ⟨others, hOthers, hText⟩ := h.exists_init hDistinctive
      rw [substitute, List.foldl_append]
      change Text.replaceAll pair.1 pair.2 (substitute pairs line) = _
      rw [ih hOthers hDistinctive.init, hText]

/-- The pieces of a cut are the line. -/
theorem spells (h : Cuts pairs line pieces) : pieces.flatMap Piece.original = line := by
  induction h with
  | done => rfl
  | @parameter found _ _ _ _ ih => exact congrArg (found.1 ++ ·) ih
  | @kept c _ _ _ _ ih => exact congrArg (c :: ·) ih

/-- Each parameter piece belongs to a parameter. -/
theorem known (h : Cuts pairs line pieces) (hPiece : .parameter pair ∈ pieces) : pair ∈ pairs := by
  induction h with
  | done => cases hPiece
  | parameter hMem _ ih =>
      rcases List.mem_cons.mp hPiece with hEq | hPiece
      · cases hEq
        exact hMem
      · exact ih hPiece
  | kept _ _ ih =>
      rcases List.mem_cons.mp hPiece with hEq | hPiece
      · cases hEq
      · exact ih hPiece

/-- Parameters that share no character do not begin inside each other. So each of them is found
wherever it would be found alone. -/
theorem leftmost (h : Cuts pairs line pieces) (hDistinctive : Distinctive pairs)
    (hPair : pair ∈ pairs) : Text.Leftmost pair.1 line (Piece.startsOf pair pieces) := by
  have hPattern : pair.1 ≠ [] := (hDistinctive.nonempty pair hPair).1
  induction h with
  | done => exact .nil hPattern
  | @parameter found rest pieces hMem _ ih =>
      by_cases hEq : found = pair
      · subst hEq
        rw [Piece.startsOf, if_pos rfl]
        exact ih.take
      · have hApart := hDistinctive.apart_of_ne hMem hPair hEq
        rw [Piece.startsOf, if_neg (by simpa using hEq)]
        exact ih.skip fun _ =>
          Text.not_isPrefix_drop_of_not_mem hPattern (fun c hc => (hApart.1 c hc).1) rest
  | @kept c rest pieces hNone _ ih =>
      rw [Piece.startsOf, if_neg (by simp)]
      refine ih.skip (s := [c]) fun start hStart => ?_
      have hZero : start = 0 := by simpa using hStart
      subst hZero
      exact hNone pair hPair

/-- Cutting a line at all parameters at once replaces each occurrence of each. -/
theorem simultaneous (h : Cuts pairs line pieces) (hDistinctive : Distinctive pairs) :
    Simultaneous pairs line pieces :=
  ⟨h.spells, fun _ => h.known, fun _ => h.leftmost hDistinctive⟩

end Cuts

/-- A line is cut up in this way from the left. -/
theorem Simultaneous.cuts (h : Simultaneous pairs line pieces) : Cuts pairs line pieces := by
  induction pieces generalizing line with
  | nil =>
      rw [← h.spells]
      exact .done
  | cons piece rest ih =>
      have hLine : piece.original ++ rest.flatMap Piece.original = line := h.spells
      subst hLine
      have hRest : Cuts pairs (rest.flatMap Piece.original) rest := by
        refine ih ⟨rfl, fun pair hMem => h.known pair (by simp [hMem]), fun pair hMem => ?_⟩
        have hAll := h.leftmost pair hMem
        rw [Piece.startsOf] at hAll
        split at hAll
        · next hEq =>
            subst hEq
            exact hAll.of_take
        · exact hAll.of_skip
      cases piece with
      | parameter pair => exact .parameter (h.known pair (by simp)) hRest
      | kept c =>
          refine .kept (fun pair hMem hPrefix => ?_) hRest
          obtain ⟨first, hFirst, hLe, -⟩ := (h.leftmost pair hMem).covers 0 hPrefix
          rw [Piece.startsOf, if_neg (by simp)] at hFirst
          obtain ⟨inner, -, rfl⟩ := List.mem_map.mp hFirst
          exact absurd hLe (by simp [Piece.original])

/-- If no character of a parameter occurs in another pair, the order in which the parameters are
replaced does not matter. What comes out is the line with all of them replaced at once: each
leftmost occurrence in the line as it was gives way to its argument, and all else stays. -/
theorem distinctive_parameters_at_once (h : Distinctive pairs) (line : Text) :
    (∃ pieces, Simultaneous pairs line pieces) ∧
    ∀ order, order.Perm pairs →
      substitute order line = substitute pairs line ∧
      ∀ pieces, Simultaneous pairs line pieces →
        substitute order line = pieces.flatMap Piece.replaced := by
  obtain ⟨pieces, hCuts⟩ := Cuts.exists_cuts (fun pair hMem => (h.nonempty pair hMem).1) line
  refine ⟨⟨pieces, hCuts.simultaneous h⟩, fun order hPerm => ⟨?_, fun other hOther => ?_⟩⟩
  · rw [(hCuts.perm hPerm).substitute_eq (h.perm hPerm), hCuts.substitute_eq h]
  · exact (hOther.cuts.perm hPerm).substitute_eq (h.perm hPerm)

/-- An argument that brings its own parameter in again, and a parameter that overlaps itself. -/
def recurring : List (Text × Text) :=
  [("AB".toList, "ABA".toList), ("xx".toList, "q+q".toList)]

theorem distinctive_parameters_at_once_recurring :
    Distinctive recurring ∧
      substitute recurring "xxxABxx, B".toList = "q+qxABAq+q, B".toList ∧
      substitute recurring.reverse "xxxABxx, B".toList = "q+qxABAq+q, B".toList ∧
      ∃ pieces, Simultaneous recurring "xxxABxx, B".toList pieces ∧
        pieces.flatMap Piece.replaced = "q+qxABAq+q, B".toList := by
  have hDistinctive : Distinctive recurring :=
    ⟨by simp [recurring], by simp [recurring, Apart]⟩
  have hText : substitute recurring "xxxABxx, B".toList = "q+qxABAq+q, B".toList := by decide
  obtain ⟨⟨pieces, hPieces⟩, hOrders⟩ :=
    distinctive_parameters_at_once hDistinctive "xxxABxx, B".toList
  have hReverse := (hOrders recurring.reverse (List.reverse_perm recurring)).1
  have hReplaced := (hOrders recurring (.refl recurring)).2 pieces hPieces
  exact ⟨hDistinctive, hText, hReverse.trans hText, pieces, hPieces, hReplaced.symm.trans hText⟩

end

end Macro

end TwoPass
