import TwoPass.Proofs.Macro.Reading
import TwoPass.Proofs.Macro.Sweep
import TwoPass.Proofs.Macro.Tree
import TwoPass.Proofs.Text.Lines

/-! Where the characters of a stream come from. Cutting a line up and putting arguments into a body
only ever moves characters that are in the source, and what expansion adds by itself are hash signs,
blanks and colons. So no line of a stream has a line feed inside. -/
namespace TwoPass

namespace Text

theorem replaceFrom_subset (pattern replacement : Text) (skip : Nat) (s : Text) :
    replaceFrom pattern replacement skip s ⊆ replacement ++ s := by
  intro c hMem
  rw [List.mem_append]
  fun_induction replaceFrom pattern replacement skip s <;> grind

/-- Replacing adds no characters but those of the replacement. -/
theorem replaceAll_subset (pattern replacement s : Text) :
    replaceAll pattern replacement s ⊆ replacement ++ s := by
  unfold replaceAll
  split
  · simp
  · exact replaceFrom_subset pattern replacement 0 s

end Text

/-- Taking off a comment adds none. -/
theorem stripCommentFrom_subset (quoted : Bool) (line : Text) :
    stripCommentFrom quoted line ⊆ line := by
  fun_induction stripCommentFrom quoted line with
  | case1 => simp
  | case2 quoted rest ih => exact List.cons_subset_cons _ ih
  | case3 => simp
  | case4 quoted c rest _ _ ih => exact List.cons_subset_cons c ih

namespace Macro

/-- The label and the arguments of a call stand in its line. -/
theorem call_subset {line : Text} {call : Call} (h : call? line = some call) :
    (∀ label, call.label = some label → label ⊆ line) ∧
      ∀ argument ∈ call.arguments, argument ⊆ line := by
  have hStrip : stripComment line ⊆ line := stripCommentFrom_subset false line
  have hInside : ∀ {s name list after argument : Text} {arguments : List Text},
      OpensList s name (list ++ ')' :: after) → Text.Listed list arguments →
        argument ∈ arguments → argument ⊆ s := by
    intro s name list after argument arguments hList hArguments hMem c hc
    rw [← Text.listed_iff.mp hArguments] at hMem
    exact hList.subset (by simp [Text.subset_of_mem_splitList hMem hc])
  have hWritten := call?_eq_some_iff.mp h
  generalize stripComment line = code at hStrip hWritten
  cases hWritten with
  | plain hList _ _ hArguments =>
      refine ⟨by simp, fun argument hMem => ?_⟩
      exact List.Subset.trans (hInside hList hArguments hMem) hStrip
  | labelled _ _ _ hList _ _ hArguments =>
      constructor
      · rintro label ⟨⟩ c hMem
        exact hStrip (by simp [hMem])
      · intro argument hMem c hc
        exact hStrip (by simp [hInside hList hArguments hMem hc])

/-- A substituted line has characters of the line and of the arguments only. -/
theorem mem_substitute {pairs : List (Text × Text)} {line : Text} {c : Char}
    (h : c ∈ substitute pairs line) : c ∈ line ∨ ∃ pair ∈ pairs, c ∈ pair.2 := by
  induction pairs generalizing line with
  | nil => exact Or.inl h
  | cons pair rest ih =>
      rcases ih h with hFirst | ⟨other, hMem, hOther⟩
      · rcases List.mem_append.mp (Text.replaceAll_subset _ _ _ hFirst) with hArgument | hLine
        · exact Or.inr ⟨pair, by simp, hArgument⟩
        · exact Or.inl hLine
      · exact Or.inr ⟨other, by simp [hMem], hOther⟩

/-- Whether no body in a table has a line feed inside. -/
def SingleLines (macros : MacroTable) : Prop :=
  ∀ name m, macros.get? name = some m → ∀ text ∈ m.body, '\n' ∉ text

namespace SingleLines

variable {macros : MacroTable} {line : Text} {call : Call} {m : Macro}

theorem empty : SingleLines .empty := by
  intro name m h
  simp at h

/-- A definition with single lines keeps all bodies single lines. -/
theorem insert (h : SingleLines macros) (name : Text) (hBody : ∀ text ∈ m.body, '\n' ∉ text) :
    SingleLines (macros.insert name m) := by
  intro other found hFound
  rw [NameMap.get?_insert] at hFound
  split at hFound
  · cases hFound
    exact hBody
  · exact h other found hFound

/-- So does a line added to a body. -/
theorem modify (h : SingleLines macros) (name : Text) {text : Text} (hText : '\n' ∉ text) :
    SingleLines (macros.modify name fun m => { m with body := m.body ++ [text] }) := by
  unfold NameMap.modify
  split
  · next m hFound =>
      apply h.insert name
      intro other hMem
      rcases List.mem_append.mp hMem with hMem | hMem
      · exact h name m hFound other hMem
      · rw [List.mem_singleton] at hMem
        rwa [hMem]
  · exact h

/-- Arguments come from the calling line, so they bring no line feed into a body. -/
theorem bodyFor (h : SingleLines macros) (hLine : '\n' ∉ line)
    (hCall : callOf? macros line = some (call, m)) :
    ∀ inner ∈ m.bodyFor call.arguments, '\n' ∉ inner := by
  obtain ⟨hCall, hFound⟩ := callOf?_eq_some_iff.mp hCall
  intro inner hInner hMem
  obtain ⟨text, hText, rfl⟩ := List.mem_map.mp hInner
  rcases mem_substitute hMem with hBody | ⟨pair, hPair, hArgument⟩
  · exact h call.name m hFound text hText hBody
  · exact hLine ((call_subset hCall).2 pair.2 (List.of_mem_zip hPair).2 hArgument)

/-- No line of the tree holds a line feed, by induction along its address. -/
theorem expansionTree (h : SingleLines macros) {address : List Nat} {inner : Text}
    (hLine : '\n' ∉ line) (hInner : Macro.expansionTree macros line address = some inner) :
    '\n' ∉ inner := by
  induction address generalizing line with
  | nil =>
      cases hInner
      exact hLine
  | cons i rest ih =>
      cases hCall : callOf? macros line with
      | none => simp [expansionTree_leaf hCall] at hInner
      | some called =>
          obtain ⟨call, m⟩ := called
          rw [expansionTree_cons hCall] at hInner
          obtain ⟨text, hText, hInner⟩ := Option.bind_eq_some_iff.mp hInner
          exact ih (h.bodyFor hLine hCall text (List.mem_of_getElem? hText)) hInner

/-- Nor does what the stream shows of it. -/
theorem shownAt (h : SingleLines macros) (hLine : '\n' ∉ line) (address : List Nat) :
    ∀ text ∈ (Macro.expansionTree macros line).shownAt macros address, '\n' ∉ text := by
  intro text hText
  unfold Tree.shownAt at hText
  cases hNode : Macro.expansionTree macros line address with
  | none => simp [hNode] at hText
  | some inner =>
      have hInner := h.expansionTree hLine hNode
      rw [hNode] at hText
      dsimp only at hText
      split at hText
      · rw [List.mem_singleton] at hText
        rwa [hText]
      · next label name arguments m hCall =>
          have hCall := (callOf?_eq_some_iff.mp hCall).1
          have hLabel : '\n' ∉ label := fun hMem => hInner ((call_subset hCall).1 label rfl hMem)
          rcases List.mem_pair.mp hText with rfl | rfl
          · simpa using hInner
          · simpa using hLabel
      · rw [List.mem_singleton] at hText
        simpa [hText] using hInner

/-- So every expansion consists of single lines. -/
theorem expand (h : SingleLines macros) (hLine : '\n' ∉ line) {out : List Text}
    (hOut : (Macro.expand macros line).result = .ok out) : ∀ text ∈ out, '\n' ∉ text := by
  intro text hText
  obtain ⟨address, hShown⟩ := exists_mem_shownAt hOut hText
  exact h.shownAt hLine address text hShown

end SingleLines

end Macro

namespace Sweep

variable {sweep next : Sweep} {line : StreamLine} {out : List StreamLine}

/-- A step of the sweep keeps the table and the stream to single lines. -/
theorem singleLines_of_takes (h : Takes sweep line next out)
    (hMacros : Macro.SingleLines sweep.macros) (hLine : '\n' ∉ line.text) :
    Macro.SingleLines next.macros ∧ ∀ left ∈ out, '\n' ∉ left.text := by
  have hComment : ∀ left ∈ [asComment line], '\n' ∉ left.text := by
    simpa [asComment] using hLine
  cases h with
  | opens => exact ⟨hMacros.insert _ (by simp), hComment⟩
  | closes => exact ⟨hMacros, hComment⟩
  | collects => exact ⟨hMacros.modify _ hLine, hComment⟩
  | expands _ _ hTexts =>
      refine ⟨hMacros, ?_⟩
      intro left hMem
      obtain ⟨text, hText, rfl⟩ := List.mem_map.mp hMem
      exact hMacros.expand hLine hTexts text hText

end Sweep

/-- The sweep reads the lines of the source and nothing else. -/
theorem text_mem_lines_of_mem_sourceLines {source : Text} {line : StreamLine}
    (h : line ∈ sourceLines source) : line.text ∈ Text.lines source := by
  obtain ⟨⟨text, number⟩, hMem, rfl⟩ := List.mem_map.mp h
  exact List.fst_mem_of_mem_zipIdx hMem

/-- No line of a stream has a line feed inside. -/
theorem not_mem_of_sweep {source : Text} {stream : List StreamLine} {macros : MacroTable}
    (h : (sweep source).result = .ok (stream, macros)) : ∀ line ∈ stream, '\n' ∉ line.text :=
  Sweep.forall_of_run (fun hKept hTaken hTakes => Sweep.singleLines_of_takes hTakes hKept hTaken) h
    Macro.SingleLines.empty
    fun _ hMem => Text.not_mem_of_mem_lines (text_mem_lines_of_mem_sourceLines hMem)

end TwoPass
