import TwoPass.CommandLine.Arguments

namespace TwoPass.CommandLine

/-- The argument that asks for no listing. -/
def noListingArgument : Text := '-' :: '-' :: "no-listing".toList

/-- Whether an option can follow arguments: they have not turned to file names for good, and the
last of them is no option that still waits for its value. -/
def awaitsOption : List Text → Bool
  | [] => true
  | argument :: rest =>
    match Argument.ofText argument with
    | .separator => false
    | .long name none =>
      match ValueOption.ofName? name with
      | none => awaitsOption rest
      | some _ =>
        match rest with
        | [] => false
        | _ :: rest => awaitsOption rest
    | _ => awaitsOption rest

/-- The same request without a listing. -/
def Request.quiet : Request → Request
  | .assemble options => .assemble { options with noListing := true }
  | .information => .information
  | .misuse => .misuse

/-- A long option without a value is its name behind two dashes. -/
theorem Argument.ofText_long {argument name : Text} (h : ofText argument = .long name none) :
    argument = '-' :: '-' :: name := by
  unfold ofText at h
  split at h
  · cases h
  · split at h
    · cases h
    · cases h
      rfl
  · cases h
  · cases h

namespace Draft

variable {draft next : Draft}

def quiet (draft : Draft) : Draft := { draft with noListing := true }

theorem finish_quiet (draft : Draft) : draft.quiet.finish = draft.finish.quiet := by
  obtain ⟨names, sizing, config, wordsPerLine, symbolsJson, noListing⟩ := draft
  unfold finish quiet
  dsimp only
  split <;> rfl

/-- Names are added whether or not there is to be a listing. -/
theorem addName_quiet (draft : Draft) (name : Text) :
    draft.quiet.addName name = (draft.addName name).map quiet := by
  obtain ⟨names, sizing, config, wordsPerLine, symbolsJson, noListing⟩ := draft
  unfold addName quiet
  dsimp only
  split <;> rfl

theorem addNames_quiet (draft : Draft) (names : List Text) :
    draft.quiet.addNames names = (draft.addNames names).map quiet := by
  unfold addNames
  induction names generalizing draft with
  | nil => rfl
  | cons name rest ih =>
      rw [List.foldlM_cons, List.foldlM_cons, addName_quiet]
      cases draft.addName name with
      | none => rfl
      | some next => exact ih next

/-- Options are set whether or not there is to be a listing. -/
theorem setOption_quiet (draft : Draft) (value : Text) (option : ValueOption) :
    draft.quiet.setOption value option = (draft.setOption value option).map quiet := by
  cases option <;> simp [setOption, quiet, Option.map_map, Function.comp_def]

theorem bind_setOption_quiet (draft : Draft) (value : Option Text) (option : ValueOption) :
    value.bind (draft.quiet.setOption · option) =
      (value.bind (draft.setOption · option)).map quiet := by
  cases value with
  | none => rfl
  | some text => exact setOption_quiet draft text option

/-- No other argument asks for the listing to be left out. -/
theorem noListing_addName {name : Text} (h : draft.addName name = some next) :
    next.noListing = draft.noListing := by
  unfold addName at h
  split at h
  · cases h
  · cases h
    rfl

theorem noListing_setOption {value : Text} {option : ValueOption}
    (h : draft.setOption value option = some next) : next.noListing = draft.noListing := by
  cases option with
  | sizing | config | wordsPerLine | symbolsJson =>
      obtain ⟨given, _, rfl⟩ := Option.map_eq_some_iff.mp h
      rfl

end Draft

/-- Arguments behind the option, which is not given again. -/
theorem requestFrom_quiet {draft : Draft} {arguments : List Text}
    (hDraft : draft.noListing = false) (hOnce : noListingArgument ∉ arguments) :
    requestFrom draft.quiet arguments = (requestFrom draft arguments).quiet := by
  fun_induction requestFrom draft arguments with
  | case1 draft => exact draft.finish_quiet
  | case2 draft argument rest hForm next hNames =>
      simp only [requestFrom, hForm, Draft.addNames_quiet, hNames, Option.map_some,
        Draft.finish_quiet]
  | case4 draft argument rest name hForm next hName ih =>
      simp only [requestFrom, hForm, Draft.addName_quiet, hName, Option.map_some]
      rw [List.mem_cons, not_or] at hOnce
      exact ih ((Draft.noListing_addName hName).trans hDraft) hOnce.2
  | case8 draft argument rest name option hOption value next hNext hForm ih =>
      simp only [requestFrom, hForm, hOption, Draft.setOption_quiet, hNext, Option.map_some]
      rw [List.mem_cons, not_or] at hOnce
      exact ih ((Draft.noListing_setOption hNext).trans hDraft) hOnce.2
  | case11 draft argument name option hOption value rest next hNext hForm ih =>
      simp only [requestFrom, hForm, hOption, Draft.bind_setOption_quiet, hNext, Option.map_some]
      obtain ⟨_, _, hSet⟩ := Option.bind_eq_some_iff.mp hNext
      rw [List.mem_cons, List.mem_cons, not_or, not_or] at hOnce
      exact ih ((Draft.noListing_setOption hSet).trans hDraft) hOnce.2.2
  | case15 draft argument rest name value hForm hOption hValue hInformation hName ih =>
      -- The argument is the option itself, which was excluded.
      rw [Option.not_isSome_iff_eq_none.mp hValue, hName.1] at hForm
      rw [Argument.ofText_long hForm] at hOnce
      exact absurd List.mem_cons_self hOnce
  | case12 draft argument name option hOption value rest hNext hForm =>
      simp only [requestFrom, hForm, hOption, Draft.bind_setOption_quiet, hNext, Option.map_none,
        Request.quiet]
  | case3 | case5 | case6 | case7 | case9 | case10 | case13 | case14 | case16 =>
      -- The argument decides the request, whatever the draft says about the listing.
      simp_all [requestFrom, Draft.addNames_quiet, Draft.addName_quiet, Draft.setOption_quiet,
        Request.quiet]

/-- A name that stands for no option with a value decides the request, unless it is the one that
asks for no listing. -/
theorem requestFrom_word {argument name : Text} (hForm : Argument.ofText argument = .long name none)
    (hOption : ValueOption.ofName? name = none) (hName : name ≠ "no-listing".toList) (draft : Draft)
    (rest : List Text) :
    requestFrom draft (argument :: rest) =
      if name = "help".toList ∨ name = "version".toList then .information else .misuse := by
  have hOther : ¬(name = "no-listing".toList ∧ ¬draft.noListing = true) := fun h => hName h.1
  rw [requestFrom.eq_def]
  simp only [hForm, hOption, Option.isSome_none, Bool.false_eq_true, if_false]
  rw [if_neg hOther]

/-- Arguments that an option can follow have decided the request already, or they lead to a draft
from which the others are read. -/
theorem requestFrom_append {front : List Text} (hFront : awaitsOption front = true)
    (hOnce : noListingArgument ∉ front) (draft : Draft) :
    (∃ request : Request, request.quiet = request ∧
      ∀ more, requestFrom draft (front ++ more) = request) ∨
    ∃ next : Draft, next.noListing = draft.noListing ∧
      ∀ more, requestFrom draft (front ++ more) = requestFrom next more := by
  fun_induction awaitsOption front generalizing draft with
  | case1 => exact .inr ⟨draft, rfl, fun _ => rfl⟩
  | case2 argument rest hForm => cases hFront
  | case3 argument rest name hForm hOption ih =>
      have hName : name ≠ "no-listing".toList := by
        rintro rfl
        rw [Argument.ofText_long hForm] at hOnce
        exact hOnce List.mem_cons_self
      refine .inl ⟨_, ?_, fun more => requestFrom_word hForm hOption hName draft (rest ++ more)⟩
      split <;> rfl
  | case4 argument name hForm option hOption => cases hFront
  | case5 argument name hForm option hOption value rest ih =>
      cases hSet : (Argument.ofText value).asValue?.bind (draft.setOption · option) with
      | none =>
          refine .inl ⟨.misuse, rfl, ?_⟩
          intro more
          simp only [List.cons_append, requestFrom, hForm, hOption, hSet]
      | some next =>
          obtain ⟨_, _, hNext⟩ := Option.bind_eq_some_iff.mp hSet
          rw [List.mem_cons, List.mem_cons, not_or, not_or] at hOnce
          rw [← Draft.noListing_setOption hNext]
          simp only [List.cons_append, requestFrom, hForm, hOption, hSet]
          exact ih hFront hOnce.2.2 next
  | case6 argument rest hSeparator hLong ih =>
      rw [List.mem_cons, not_or] at hOnce
      cases hForm : Argument.ofText argument with
      | separator => exact absurd hForm hSeparator
      | short letter =>
          by_cases hLetter : letter = 'h' ∨ letter = 'V'
          · exact .inl ⟨.information, rfl, fun _ => by simp [requestFrom, hForm, hLetter]⟩
          · exact .inl ⟨.misuse, rfl, fun _ => by simp [requestFrom, hForm, hLetter]⟩
      | plain name =>
          cases hName : draft.addName name with
          | none => exact .inl ⟨.misuse, rfl, fun _ => by simp [requestFrom, hForm, hName]⟩
          | some next =>
              rw [← Draft.noListing_addName hName]
              simp only [List.cons_append, requestFrom, hForm, hName]
              exact ih hFront hOnce.2 next
      | long name value =>
          cases value with
          | none => exact absurd hForm (hLong name)
          | some value =>
              cases hOption : ValueOption.ofName? name with
              | none => exact .inl ⟨.misuse, rfl, fun _ => by simp [requestFrom, hForm, hOption]⟩
              | some option =>
                  cases hSet : draft.setOption value option with
                  | none =>
                      refine .inl ⟨.misuse, rfl, ?_⟩
                      intro more
                      simp only [List.cons_append, requestFrom, hForm, hOption, hSet]
                  | some next =>
                      rw [← Draft.noListing_setOption hSet]
                      simp only [List.cons_append, requestFrom, hForm, hOption, hSet]
                      exact ih hFront hOnce.2 next

theorem requestFrom_noListingArgument {draft : Draft} (hDraft : draft.noListing = false)
    (rest : List Text) :
    requestFrom draft (noListingArgument :: rest) = requestFrom draft.quiet rest := by
  have hForm : Argument.ofText noListingArgument = .long "no-listing".toList none := by decide
  have hOption : ValueOption.ofName? "no-listing".toList = none := by decide
  have hInformation : ¬("no-listing".toList = "help".toList ∨
      "no-listing".toList = "version".toList) := by decide
  rw [requestFrom.eq_def]
  simp only [hForm, hOption, hDraft, Option.isSome_none, Bool.false_eq_true, if_false]
  rw [if_neg hInformation, if_pos (by simp)]
  rfl

/-- Asking for no listing, wherever an option can stand, is all that the option does. -/
theorem request_insert {front back : List Text} (hFront : awaitsOption front = true)
    (hOnce : noListingArgument ∉ front ++ back) :
    request (front ++ noListingArgument :: back) = (request (front ++ back)).quiet := by
  rw [List.mem_append, not_or] at hOnce
  rcases requestFrom_append hFront hOnce.1 .blank with ⟨decided, hQuiet, h⟩ | ⟨next, hNext, h⟩
  · rw [request, request, h, h, hQuiet]
  · rw [request, request, h, h, requestFrom_noListingArgument hNext]
    exact requestFrom_quiet hNext hOnce.2

end TwoPass.CommandLine
