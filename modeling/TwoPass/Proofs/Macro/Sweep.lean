import TwoPass.Macro.Sweep
import TwoPass.Proofs.Outcome

namespace TwoPass

/-- Whether a line opens or closes a definition. A text that is no such line may still belong to a
definition. -/
def Macro.delimits (text : Text) : Bool := (definition? text).isSome || closesDefinition text

/-- A line delimits if it opens or closes a definition. -/
theorem Macro.delimits_eq_false_iff {text : Text} :
    delimits text = false ↔ definition? text = none ∧ closesDefinition text = false := by
  simp [delimits]

namespace Sweep

/-- Taking in a line, with the stream lines that it leads to. -/
inductive Takes (sweep : Sweep) (line : StreamLine) : Sweep → List StreamLine → Prop where
  | opens {name : Text} {parameters : List Text}
      (hOpens : Macro.definition? line.text = some (name, parameters)) :
      Takes sweep line ⟨sweep.macros.insert name ⟨name, parameters, []⟩, some name⟩ [asComment line]
  | closes (hOpens : Macro.definition? line.text = none)
      (hCloses : Macro.closesDefinition line.text = true) :
      Takes sweep line { sweep with opened := none } [asComment line]
  | collects {name : Text} (hPlain : Macro.delimits line.text = false)
      (hOpened : sweep.opened = some name) :
      Takes sweep line
        { sweep with
          macros := sweep.macros.modify name fun m => { m with body := m.body ++ [line.text] } }
        [asComment line]
  | expands {texts : List Text} (hPlain : Macro.delimits line.text = false)
      (hOpened : sweep.opened = none)
      (hTexts : (Macro.expand sweep.macros line.text).result = .ok texts) :
      Takes sweep line sweep (texts.map fun text => { line with text })

variable {sweep next : Sweep} {line : StreamLine} {lines rest out stream : List StreamLine}
  {macros : MacroTable}

/-- The rules describe exactly the successful results. -/
theorem step_eq_ok_iff :
    (sweep.step line).result = .ok (next, out) ↔ sweep.Takes line next out := by
  constructor
  · intro h
    unfold step at h
    cases hOpens : Macro.definition? line.text with
    | some opened =>
        obtain ⟨name, parameters⟩ := opened
        rw [hOpens] at h
        cases h
        exact .opens hOpens
    | none =>
        rw [hOpens] at h
        dsimp only at h
        cases hCloses : Macro.closesDefinition line.text with
        | true =>
            rw [hCloses, if_pos rfl] at h
            cases h
            exact .closes hOpens hCloses
        | false =>
            have hPlain := Macro.delimits_eq_false_iff.mpr ⟨hOpens, hCloses⟩
            rw [hCloses, if_neg Bool.false_ne_true] at h
            cases hOpened : sweep.opened with
            | some name =>
                rw [hOpened] at h
                cases h
                rw [← hOpened]
                exact .collects hPlain hOpened
            | none =>
                rw [hOpened] at h
                dsimp only at h
                rw [Logged.result_bind] at h
                obtain ⟨texts, hTexts, h⟩ := bind_eq_ok_iff.mp h
                cases h
                exact .expands hPlain hOpened hTexts
  · intro h
    cases h with
    | opens hOpens => simp [step, hOpens]
    | closes hOpens hCloses =>
        simp only [step, hOpens, hCloses, if_true]
        rfl
    | collects hPlain hOpened =>
        obtain ⟨hOpens, hCloses⟩ := Macro.delimits_eq_false_iff.mp hPlain
        simp [step, hOpens, hCloses, hOpened]
    | expands hPlain hOpened hTexts =>
        obtain ⟨hOpens, hCloses⟩ := Macro.delimits_eq_false_iff.mp hPlain
        simp only [step, hOpens, hCloses, hOpened, Bool.false_eq_true, if_false,
          Logged.result_bind, hTexts]
        rfl

/-- A sweep goes line by line. -/
theorem run_cons_eq_ok_iff :
    (sweep.run (line :: rest)).result = .ok (stream, macros) ↔
      ∃ next first others, sweep.Takes line next first ∧
        (next.run rest).result = .ok (others, macros) ∧ stream = first ++ others := by
  rw [run, Logged.result_bind, bind_eq_ok_iff]
  simp only [Logged.result_bind, bind_eq_ok_iff]
  constructor
  · rintro ⟨⟨next, first⟩, hStep, ⟨others, macros'⟩, hRest, h⟩
    cases h
    exact ⟨next, first, others, step_eq_ok_iff.mp hStep, hRest, rfl⟩
  · rintro ⟨next, first, others, hTakes, hRest, rfl⟩
    exact ⟨(next, first), step_eq_ok_iff.mpr hTakes, (others, macros), hRest, rfl⟩

/-- What holds of a sweep, is kept by every line and holds of all that comes out of a line, holds
of the stream. -/
theorem forall_of_run {Kept : Sweep → Prop} {Taken Left : StreamLine → Prop}
    (hStep : ∀ {sweep next line out}, Kept sweep → Taken line → Takes sweep line next out →
      Kept next ∧ ∀ left ∈ out, Left left)
    (hRun : (sweep.run lines).result = .ok (stream, macros)) (hKept : Kept sweep)
    (hTaken : ∀ line ∈ lines, Taken line) : ∀ left ∈ stream, Left left := by
  induction lines generalizing sweep stream with
  | nil =>
      cases hRun
      simp
  | cons line rest ih =>
      obtain ⟨next, first, others, hTakes, hRest, rfl⟩ := run_cons_eq_ok_iff.mp hRun
      obtain ⟨hNext, hFirst⟩ := hStep hKept (hTaken line (by simp)) hTakes
      have hOthers := ih hRest hNext fun later hMem => hTaken later (by simp [hMem])
      intro left hMem
      rcases List.mem_append.mp hMem with hMem | hMem
      · exact hFirst left hMem
      · exact hOthers left hMem

end Sweep

/-- The texts of the source lines are the lines of the source. -/
theorem map_text_sourceLines (source : Text) :
    (sourceLines source).map StreamLine.text = Text.lines source := by
  rw [sourceLines, List.map_map]
  exact List.zipIdx_map_fst 1 (Text.lines source)

end TwoPass
