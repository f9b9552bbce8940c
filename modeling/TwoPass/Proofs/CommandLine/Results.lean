import TwoPass.Proofs.CommandLine.Arguments
import TwoPass.Proofs.CommandLine.Plan

/-! What the command line leaves behind. Either nothing is written, or everything is that was asked
for, with one exception: if the symbols cannot be written, the image stays, and it is whole. -/
namespace TwoPass.CommandLine

namespace Disk

variable {disk current : Disk} {texts written : List (Text × Text)}

theorem writeAll_cons (disk : Disk) (name text : Text) (rest : List (Text × Text)) :
    disk.writeAll ((name, text) :: rest) =
      match disk.target name with
      | .error cause => (.error (.creating name cause), disk)
      | .ok file => (disk.put text file).writeAll rest := by
  rw [writeAll, writeText]
  cases disk.target name <;> rfl

/-- Texts that were all written, each to a file of its own, are in their files. -/
theorem Written.writeAll (h : Written disk current written)
    (hOk : (current.writeAll texts).1 = .ok ())
    (hApart : (written ++ texts).Pairwise fun early late => ¬disk.SameFile early.1 late.1) :
    Written disk (current.writeAll texts).2 (written ++ texts) := by
  induction texts generalizing current written with
  | nil =>
      rw [List.append_nil]
      exact h
  | cons entry rest ih =>
      obtain ⟨name, text⟩ := entry
      rw [writeAll_cons] at hOk ⊢
      cases hTarget : current.target name with
      | error cause =>
          rw [hTarget] at hOk
          cases hOk
      | ok file =>
          rw [hTarget] at hOk
          have hNext : Written disk (current.put text file) (written ++ [(name, text)]) := by
            apply h.put (target_of_samePlaces h.places.symm hTarget)
            intro earlier held hMem
            exact (List.pairwise_append.mp hApart).2.2 _ hMem _ List.mem_cons_self
          rw [List.append_cons] at hApart ⊢
          exact ih hNext hOk hApart

theorem written_writeAll (hOk : (disk.writeAll texts).1 = .ok ())
    (hApart : texts.Pairwise fun early late => ¬disk.SameFile early.1 late.1) :
    Written disk (disk.writeAll texts).2 texts := by
  exact (Written.nothing disk).writeAll hOk hApart

/-- Writing stops at a name that cannot be written to. -/
theorem exists_of_writeAll_eq_error {failure : Failure}
    (h : (disk.writeAll texts).1 = .error failure) :
    ∃ front name text back cause, texts = front ++ (name, text) :: back ∧
      disk.target name = .error cause ∧ (disk.writeAll front).1 = .ok () ∧
      (disk.writeAll front).2 = (disk.writeAll texts).2 := by
  induction texts generalizing disk with
  | nil => cases h
  | cons entry rest ih =>
      obtain ⟨name, text⟩ := entry
      rw [writeAll_cons] at h ⊢
      cases hTarget : disk.target name with
      | error cause => exact ⟨[], name, text, rest, cause, rfl, hTarget, rfl, rfl⟩
      | ok file =>
          rw [hTarget] at h
          obtain ⟨front, stop, held, back, cause, rfl, hStop, hFront, hSame⟩ := ih h
          cases hBefore : disk.target stop with
          | ok path =>
              rw [target_of_samePlaces (samePlaces_put disk text file) hBefore] at hStop
              cases hStop
          | error cause =>
              refine ⟨(name, text) :: front, stop, held, back, cause, rfl, hBefore, ?_, ?_⟩
              · rw [writeAll_cons, hTarget]
                exact hFront
              · rw [writeAll_cons, hTarget]
                exact hSame

theorem Written.saying {final : Disk} (h : Written disk final written) (output : List UInt8)
    (complaints : List String) : Written disk (final.saying output complaints) written :=
  ⟨⟨h.places.directories, h.places.working⟩, h.holds, h.others⟩

end Disk

namespace Options

variable {options : Options} {disk : Disk}

/-- The way of measuring: what the option says, or else the config file, or else the standard. -/
def effectiveSizing (options : Options) (draft : Settings.Draft) : Sizing :=
  (options.sizing <|> draft.sizing).getD Settings.standard.sizing

/-- The number of words on a line, likewise. -/
def effectiveWidth (options : Options) (draft : Settings.Draft) : UInt64 :=
  (options.wordsPerLine <|> draft.wordsPerLine).getD Settings.standard.wordsPerLine

/-- The image in the form in which it is written. -/
def imageText (options : Options) (draft : Settings.Draft) (assembly : Assembly) : Text :=
  assembly.image.hexText (options.effectiveWidth draft).toNat

/-- Whether a draft is what the config file says. Without a file nothing is said. -/
def Configures (options : Options) (disk : Disk) (draft : Settings.Draft) : Prop :=
  match options.config with
  | none => draft = ⟨none, none⟩
  | some name => ∃ text, disk.readText name = .ok text ∧ Settings.readDraft text = .ok draft

/-- A request whose settings and source can be read and assembled. -/
structure Assembles (options : Options) (disk : Disk) (draft : Settings.Draft) (source : Text)
    (assembly : Assembly) : Prop where
  config : options.Configures disk draft
  width : options.wordsPerLine ≠ some 0
  input : disk.readText options.input = .ok source
  result : (Assembly.run (options.effectiveSizing draft) .discard source).result = .ok assembly

theorem configDraft_eq_ok_iff {draft : Settings.Draft} :
    options.configDraft disk = .ok draft ↔ options.Configures disk draft := by
  unfold configDraft Configures
  cases options.config with
  | none => simp [eq_comm]
  | some name => simp only [bind_eq_ok_iff, mapError_eq_ok_iff]

/-- Options go over what the config file says. -/
theorem override_eq_ok_iff {draft : Settings.Draft} {settings : Settings} :
    options.override draft.settings = .ok settings ↔
      options.wordsPerLine ≠ some 0 ∧
        settings = ⟨options.effectiveSizing draft, options.effectiveWidth draft⟩ := by
  have hSizing : options.sizing.getD (draft.sizing.getD Settings.standard.sizing) =
      options.effectiveSizing draft := by
    unfold effectiveSizing
    cases options.sizing <;> rfl
  unfold override Settings.Draft.settings effectiveWidth
  rw [hSizing]
  cases options.wordsPerLine with
  | none => simp [eq_comm]
  | some words =>
      dsimp only
      by_cases hZero : words = 0
      · simp [hZero]
      · simp [hZero, eq_comm]

/-- What is planned if all goes well. -/
theorem plan_eq_ok_iff {texts : List (Text × Text)} :
    options.plan disk = .ok texts ↔
      ∃ draft source assembly, options.Assembles disk draft source assembly ∧
        texts = (options.output, options.imageText draft assembly) ::
          options.symbolsJson.toList.map (·, assembly.symbols.json) := by
  unfold plan
  simp only [bind_eq_ok_iff, map_eq_ok_iff, mapError_eq_ok_iff]
  constructor
  · rintro ⟨_, ⟨draft, hConfig, rfl⟩, _, hOverride, source, hSource, assembly, hResult, hTexts⟩
    obtain ⟨hWidth, rfl⟩ := override_eq_ok_iff.mp hOverride
    cases hTexts
    have hSaid := configDraft_eq_ok_iff.mp hConfig
    exact ⟨draft, source, assembly, ⟨hSaid, hWidth, hSource, hResult⟩, rfl⟩
  · rintro ⟨draft, source, assembly, h, rfl⟩
    have hConfig := configDraft_eq_ok_iff.mpr h.config
    refine ⟨_, ⟨draft, hConfig, rfl⟩, _, override_eq_ok_iff.mpr ⟨h.width, rfl⟩, ?_⟩
    exact ⟨source, h.input, assembly, h.result, rfl⟩

/-- A plan that comes off leaves all results. -/
theorem fulfil_plan_eq_ok {final : Disk}
    (h : disk.fulfil (options.plan disk) = (.ok (), final)) :
    ∃ draft source assembly, options.Assembles disk draft source assembly ∧
      ((∀ name, options.symbolsJson = some name → ¬disk.SameFile options.output name) →
        disk.Written final ((options.output, options.imageText draft assembly) ::
          options.symbolsJson.toList.map (·, assembly.symbols.json))) := by
  cases hPlan : options.plan disk with
  | error failure =>
      rw [hPlan] at h
      cases h
  | ok texts =>
      rw [hPlan] at h
      obtain ⟨draft, source, assembly, hAssembles, rfl⟩ := plan_eq_ok_iff.mp hPlan
      refine ⟨draft, source, assembly, hAssembles, ?_⟩
      intro hApart
      rw [Disk.fulfil] at h
      have hWritten := Disk.written_writeAll (congrArg Prod.fst h)
      rw [h] at hWritten
      apply hWritten
      cases hSymbols : options.symbolsJson with
      | none => simp
      | some name => simpa using hApart name hSymbols

/-- A plan that fails has written nothing, or the image and not the symbols. -/
theorem fulfil_plan_eq_error {failure : Failure} {final : Disk}
    (h : disk.fulfil (options.plan disk) = (.error failure, final)) :
    (final = disk ∧
      ((∀ draft source assembly, ¬options.Assembles disk draft source assembly) ∨
        ∃ cause, disk.target options.output = .error cause)) ∨
    ∃ draft source assembly name cause, options.Assembles disk draft source assembly ∧
      options.symbolsJson = some name ∧ disk.target name = .error cause ∧
      disk.Written final [(options.output, options.imageText draft assembly)] := by
  cases hPlan : options.plan disk with
  | error failure =>
      rw [hPlan] at h
      cases h
      refine .inl ⟨rfl, .inl ?_⟩
      intro draft source assembly hAssembles
      rw [plan_eq_ok_iff.mpr ⟨draft, source, assembly, hAssembles, rfl⟩] at hPlan
      cases hPlan
  | ok texts =>
      rw [hPlan] at h
      obtain ⟨draft, source, assembly, hAssembles, rfl⟩ := plan_eq_ok_iff.mp hPlan
      rw [Disk.fulfil] at h
      obtain ⟨front, stop, text, back, cause, hTexts, hStop, hFront, hSame⟩ :=
        Disk.exists_of_writeAll_eq_error (congrArg Prod.fst h)
      rw [h] at hSame
      cases front with
      | nil =>
          cases hTexts
          exact .inl ⟨hSame.symm, .inr ⟨cause, hStop⟩⟩
      | cons entry front =>
          cases hSymbols : options.symbolsJson with
          | none => simp [hSymbols] at hTexts
          | some name =>
              obtain ⟨rfl, rfl, rfl⟩ : entry = (options.output, options.imageText draft assembly) ∧
                  front = [] ∧ stop = name := by
                cases front <;> simp_all
              have hWritten := Disk.written_writeAll hFront (List.pairwise_singleton _ _)
              rw [hSame] at hWritten
              exact .inr ⟨draft, source, assembly, stop, cause, hAssembles, rfl, hStop, hWritten⟩

end Options

/-- The listing has no part in what is written. -/
theorem Request.carryOut_quiet (request : Request) : request.quiet.carryOut = request.carryOut := by
  cases request <;> rfl

/-- The exit code of the command line on a disk. -/
def exitCode (arguments : List Text) (disk : Disk) : UInt32 :=
  ((run arguments : StateM Disk UInt32).run disk).1

/-- The disk that the command line leaves. -/
def diskAfter (arguments : List Text) (disk : Disk) : Disk :=
  ((run arguments : StateM Disk UInt32).run disk).2

/-- A run that fails has written nothing, unless it is only the symbols that could not be written:
then the whole image is in its file. A run that succeeds has written the image with the effective
number of words on a line, and the symbols if they were asked for, and it has changed no other file.
Asking for no listing, wherever an option can stand, makes no difference to files and exit code. -/
theorem results_are_whole (arguments : List Text) (disk : Disk) :
    (exitCode arguments disk ≠ 0 →
      (disk.Written (diskAfter arguments disk) [] ∧
        (request arguments = .misuse ∨
          ∃ options, request arguments = .assemble options ∧
            ((∀ draft source assembly, ¬options.Assembles disk draft source assembly) ∨
              ∃ cause, disk.target options.output = .error cause))) ∨
      ∃ options draft source assembly name cause,
        request arguments = .assemble options ∧
        options.Assembles disk draft source assembly ∧
        options.symbolsJson = some name ∧ disk.target name = .error cause ∧
        disk.Written (diskAfter arguments disk)
          [(options.output, options.imageText draft assembly)]) ∧
    (exitCode arguments disk = 0 →
      (disk.Written (diskAfter arguments disk) [] ∧ request arguments = .information) ∨
      ∃ options draft source assembly,
        request arguments = .assemble options ∧
        options.Assembles disk draft source assembly ∧
        ((∀ name, options.symbolsJson = some name → ¬disk.SameFile options.output name) →
          disk.Written (diskAfter arguments disk)
            ((options.output, options.imageText draft assembly) ::
              options.symbolsJson.toList.map (·, assembly.symbols.json)))) ∧
    ∀ front back, front ++ back = arguments → awaitsOption front = true →
      noListingArgument ∉ arguments →
      exitCode (front ++ noListingArgument :: back) disk = exitCode arguments disk ∧
      (diskAfter (front ++ noListingArgument :: back) disk).files =
        (diskAfter arguments disk).files ∧
      (diskAfter (front ++ noListingArgument :: back) disk).directories =
        (diskAfter arguments disk).directories := by
  obtain ⟨output, complaints, hRun⟩ := run_eq_carryOut arguments disk
  have hExit : exitCode arguments disk = ((request arguments).carryOut disk).1 := by
    rw [exitCode, hRun]
    rfl
  have hAfter : diskAfter arguments disk =
      ((request arguments).carryOut disk).2.saying output complaints := by
    rw [diskAfter, hRun]
    rfl
  have hUntouched : disk.Written disk [] := .nothing disk
  refine ⟨?_, ?_, ?_⟩
  · rw [hExit, hAfter]
    cases request arguments with
    | misuse => exact fun _ => .inl ⟨hUntouched.saying _ _, .inl rfl⟩
    | information => exact fun hCode => absurd rfl hCode
    | assemble options =>
        rw [Request.carryOut]
        rcases hOutcome : disk.fulfil (options.plan disk) with ⟨failure | _, final⟩
        · intro _
          rcases Options.fulfil_plan_eq_error hOutcome with
            ⟨rfl, hCause⟩ | ⟨draft, source, assembly, name, cause, h, hName, hTarget, hWritten⟩
          · exact .inl ⟨hUntouched.saying _ _, .inr ⟨options, rfl, hCause⟩⟩
          · exact .inr ⟨options, draft, source, assembly, name, cause, rfl, h, hName, hTarget,
              hWritten.saying _ _⟩
        · exact fun hCode => absurd rfl hCode
  · rw [hExit, hAfter]
    cases request arguments with
    | misuse => exact fun hCode => absurd hCode (by decide : (2 : UInt32) ≠ 0)
    | information => exact fun _ => .inl ⟨hUntouched.saying _ _, rfl⟩
    | assemble options =>
        rw [Request.carryOut]
        rcases hOutcome : disk.fulfil (options.plan disk) with ⟨failure | _, final⟩
        · exact fun hCode => absurd hCode (by decide : (1 : UInt32) ≠ 0)
        · intro _
          obtain ⟨draft, source, assembly, h, hWritten⟩ := Options.fulfil_plan_eq_ok hOutcome
          exact .inr ⟨options, draft, source, assembly, rfl, h,
            fun hApart => (hWritten hApart).saying _ _⟩
  · rintro front back rfl hFront hOnce
    obtain ⟨output', complaints', hQuiet⟩ :=
      run_eq_carryOut (front ++ noListingArgument :: back) disk
    rw [request_insert hFront hOnce, Request.carryOut_quiet] at hQuiet
    rw [hExit, hAfter, exitCode, diskAfter, hQuiet]
    exact ⟨rfl, rfl, rfl⟩

/-- A disk with a program outside of the working directory and with settings for narrow lines in
it. -/
def narrow : Disk :=
  .ofFiles "/home/me".toList
    [("/src/in.s".toList, .text "go: WORD go + 1, stop\nstop: ror r1".toList),
      ("set.json".toList, .text "\x7b\"words_per_line\": 8\x7d".toList)] ["/out".toList]

def narrowArguments (symbols : Text) : List Text :=
  ["/src/in.s".toList, "--config".toList, "set.json".toList, "/out/a.hex".toList,
    "--symbols-json".toList, symbols]

def narrowOptions (symbols : Text) : Options :=
  ⟨"/src/in.s".toList, "/out/a.hex".toList, none, some "set.json".toList, none, some symbols, false⟩

/-- With a proper name for the symbols both files are written, in lines of eight words, and the
image is in the directory that its name starts from the root with. With the name of a directory
only the image is written. -/
theorem results_are_whole_narrow :
    (∃ assembly : Assembly,
      narrow.target "/out/a.hex".toList = .ok "/out/a.hex".toList ∧
      narrow.target "../b.json".toList = .ok "/home/b.json".toList ∧
      narrow.Written (diskAfter (narrowArguments "../b.json".toList) narrow)
        [("/out/a.hex".toList, assembly.image.hexText 8),
          ("../b.json".toList, assembly.symbols.json)]) ∧
    (∃ assembly : Assembly,
      narrow.Written (diskAfter (narrowArguments "/out".toList) narrow)
        [("/out/a.hex".toList, assembly.image.hexText 8)]) ∧
    exitCode ("/src/in.s".toList :: noListingArgument :: (narrowArguments "../b.json".toList).tail)
      narrow = 0 := by
  have hCode : exitCode (narrowArguments "../b.json".toList) narrow = 0 := by decide +kernel
  have hCode' : exitCode (narrowArguments "/out".toList) narrow ≠ 0 := by decide +kernel
  have hImage : narrow.target "/out/a.hex".toList = .ok "/out/a.hex".toList := by rfl
  have hSymbols : narrow.target "../b.json".toList = .ok "/home/b.json".toList := by rfl
  have hRead : narrow.readText "set.json".toList =
      .ok "\x7b\"words_per_line\": 8\x7d".toList := by rfl
  have hSaid : Settings.readDraft "\x7b\"words_per_line\": 8\x7d".toList = .ok ⟨none, some 8⟩ := by
    rfl
  have hDraft : ∀ {symbols draft source assembly},
      (narrowOptions symbols).Assembles narrow draft source assembly → draft = ⟨none, some 8⟩ := by
    intro symbols draft source assembly h
    obtain ⟨text, hText, hParsed⟩ := h.config
    cases hRead.symm.trans hText
    cases hSaid.symm.trans hParsed
    rfl
  obtain ⟨_, hDone, hQuiet⟩ := results_are_whole (narrowArguments "../b.json".toList) narrow
  obtain ⟨hStopped, _, _⟩ := results_are_whole (narrowArguments "/out".toList) narrow
  have hRequest : request (narrowArguments "../b.json".toList) =
      .assemble (narrowOptions "../b.json".toList) := by decide
  have hRequest' : request (narrowArguments "/out".toList) =
      .assemble (narrowOptions "/out".toList) := by decide
  rw [hRequest] at hDone
  rw [hRequest'] at hStopped
  rcases hDone hCode with ⟨_, hInformation⟩ | ⟨_, _, source, assembly, hOptions, h, hWritten⟩
  · cases hInformation
  cases hOptions
  cases hDraft h
  refine ⟨⟨assembly, hImage, hSymbols, hWritten ?_⟩, ?_, ?_⟩
  · rintro _ ⟨⟩ ⟨path, hOutput, hOther⟩
    cases hImage.symm.trans hOutput
    cases hSymbols.symm.trans hOther
  · rcases hStopped hCode' with ⟨_, hCause⟩ | ⟨_, _, _, assembly', _, _, hOptions, h', _, _, hLeft⟩
    · -- The same program can be assembled here, and the image can be written.
      rcases hCause with hMisuse | ⟨_, hOptions, hNot | ⟨cause, hTarget⟩⟩
      · cases hMisuse
      · cases hOptions
        exact absurd ⟨h.config, h.width, h.input, h.result⟩ (hNot _ source assembly)
      · cases hOptions
        cases hImage.symm.trans hTarget
    · cases hOptions
      cases hDraft h'
      exact ⟨assembly', hLeft⟩
  · exact (hQuiet ["/src/in.s".toList] _ rfl rfl (by decide)).1.trans hCode

end TwoPass.CommandLine
