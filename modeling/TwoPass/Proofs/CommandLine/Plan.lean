import TwoPass.CommandLine.Run
import TwoPass.Proofs.Assembly.Delivery
import TwoPass.Proofs.CommandLine.Disk

/-! Requests in two stages. Whatever can go wrong with the settings, the source and the assembly
goes wrong before a file is touched, so a request comes down to a plan, which is a list of texts to
write, and to writing these. Printing on the way changes neither. -/
namespace TwoPass.CommandLine

/-- The disk with other things printed. -/
def Disk.saying (disk : Disk) (output : List UInt8) (complaints : List String) : Disk :=
  { disk with output, complaints }

/-- Writes texts one after the other, up to the first one that cannot be written. -/
def Disk.writeAll (disk : Disk) : List (Text × Text) → Except Failure Unit × Disk
  | [] => (.ok (), disk)
  | (name, text) :: rest =>
    match disk.writeText name text with
    | .error cause => (.error (.creating name cause), disk)
    | .ok next => next.writeAll rest

/-- Writes what is planned, if there is a plan. -/
def Disk.fulfil (disk : Disk) : Except Failure (List (Text × Text)) → Except Failure Unit × Disk
  | .error failure => (.error failure, disk)
  | .ok texts => disk.writeAll texts

/-- Printing has no part in what is written. -/
theorem Disk.writeText_saying (disk : Disk) (output : List UInt8) (complaints : List String)
    (name text : Text) :
    (disk.saying output complaints).writeText name text =
      (disk.writeText name text).map (·.saying output complaints) := by
  have hTarget : (disk.saying output complaints).target name = disk.target name := rfl
  rw [writeText, writeText, hTarget]
  rcases disk.target name with _ | _ | _
  all_goals rfl

/-- Messages do not change what is written. -/
theorem Disk.writeAll_saying (disk : Disk) (output : List UInt8) (complaints : List String)
    (texts : List (Text × Text)) :
    (disk.saying output complaints).writeAll texts =
      (disk.writeAll texts).map id (·.saying output complaints) := by
  induction texts generalizing disk with
  | nil => rfl
  | cons entry rest ih =>
      obtain ⟨name, text⟩ := entry
      rw [writeAll, writeAll, writeText_saying]
      cases disk.writeText name text with
      | error cause => rfl
      | ok next => exact ih next

namespace Options

/-- What the config file says, which is nothing if there is none. -/
def configDraft (options : Options) (disk : Disk) : Except Failure Settings.Draft :=
  match options.config with
  | none => .ok ⟨none, none⟩
  | some name => do
    let text ← (disk.readText name).mapError (.readingConfig name)
    (Settings.readDraft text).mapError fun failure => .parsingConfig name (failure.message text)

/-- The texts that are to be written, each with the name of its file. -/
def plan (options : Options) (disk : Disk) : Except Failure (List (Text × Text)) := do
  let settings ← (options.configDraft disk).map Settings.Draft.settings
  let settings ← options.override settings
  let source ← (disk.readText options.input).mapError (.reading options.input)
  let assembly ← (Assembly.run settings.sizing .discard source).result.mapError .assembly
  return (options.output, assembly.image.hexText settings.wordsPerLine.toNat) ::
    options.symbolsJson.toList.map (·, assembly.symbols.json)

end Options

/-- The exit code of a request, and the disk afterwards. -/
def Request.carryOut : Request → Disk → UInt32 × Disk
  | .misuse, disk => (2, disk)
  | .information, disk => (0, disk)
  | .assemble options, disk =>
    match disk.fulfil (options.plan disk) with
    | (.ok (), final) => (0, final)
    | (.error _, final) => (1, final)

section Performed

variable {α β : Type}

/-- The outcome of an action on a disk. -/
def performed (action : ExceptT Failure (StateM Disk) α) (disk : Disk) :
    Except Failure α × Disk :=
  action.run.run disk

/-- The second action starts from the disk that the first one leaves. -/
theorem performed_bind (action : ExceptT Failure (StateM Disk) α)
    (next : α → ExceptT Failure (StateM Disk) β) (disk : Disk) :
    performed (action >>= next) disk =
      match performed action disk with
      | (.ok a, later) => performed (next a) later
      | (.error failure, later) => (.error failure, later) := by
  unfold performed
  simp only [ExceptT.run_bind, StateT.run_bind]
  rcases action.run.run disk with ⟨_ | _, _⟩ <;> rfl

theorem performed_lift (action : StateM Disk α) (disk : Disk) :
    performed (liftM action) disk = (action disk).map .ok id := rfl

theorem performed_read (name : Text) (disk : Disk) :
    performed (liftM (Host.read name : StateM Disk (Except FileError Text))) disk =
      (.ok (disk.readText name), disk) := rfl

theorem performed_fileSettings (options : Options) (disk : Disk) :
    performed (fileSettings options.config) disk =
      ((options.configDraft disk).map Settings.Draft.settings, disk) := by
  unfold fileSettings Options.configDraft
  cases options.config with
  | none => rfl
  | some name =>
      dsimp only
      rw [performed_bind, performed_read]
      dsimp only
      cases disk.readText name with
      | error cause => rfl
      | ok text =>
          rw [mapError_ok, ok_bind]
          dsimp only [Settings.parse]
          cases Settings.readDraft text <;> rfl

theorem performed_readSource (name : Text) (disk : Disk) :
    performed (readSource name) disk = ((disk.readText name).mapError (.reading name), disk) := by
  unfold readSource
  rw [performed_bind, performed_read]
  dsimp only
  cases disk.readText name <;> rfl

/-- Creating a file is writing a list of one. -/
theorem performed_create (name text : Text) (disk : Disk) :
    performed (create name text) disk = disk.writeAll [(name, text)] := by
  unfold create Disk.writeAll
  rw [performed_bind, performed_lift]
  cases hWrite : disk.writeText name text with
  | error cause =>
      have hHost : (Host.write name text : StateM Disk (Except FileError Unit)) disk =
          (.error cause, disk) := by simp only [Host.write, hWrite]
      rw [hHost]
      rfl
  | ok next =>
      have hHost : (Host.write name text : StateM Disk (Except FileError Unit)) disk =
          (.ok (), next) := by simp only [Host.write, hWrite]
      rw [hHost]
      rfl

/-- Assembling leaves the files alone, and the listing makes no difference to the result. -/
theorem performed_assembleAndList (sizing : Sizing) (noListing : Bool) (source : Text)
    (disk : Disk) :
    ∃ output, performed (assembleAndList sizing noListing source) disk =
      ((Assembly.run sizing .discard source).result.mapError .assembly,
        disk.saying output disk.complaints) := by
  have hResult :
      (Assembly.run sizing (if noListing then .discard else .writer none) source).result =
        (Assembly.run sizing .discard source).result := by
    cases noListing with
    | true => rfl
    | false => exact (Assembly.result_run_discard sizing source).symm
  unfold assembleAndList
  rw [← hResult]
  generalize Assembly.run sizing (if noListing then .discard else .writer none) source = run
  rcases run with ⟨events, records, listing, error | assembly⟩
  · exact ⟨disk.output ++ listing, rfl⟩
  · cases noListing with
    | true => exact ⟨disk.output ++ listing, rfl⟩
    | false => exact ⟨disk.output ++ listing ++ Text.utf8 assembly.symbols.dump, rfl⟩

/-- Writing the results, the image first. -/
theorem performed_create_results (name image json : Text) (symbolsJson : Option Text)
    (disk : Disk) :
    performed
        (do create name image
            match symbolsJson with
            | none => return ()
            | some name => create name json) disk =
      disk.writeAll ((name, image) :: symbolsJson.toList.map (·, json)) := by
  rw [performed_bind, performed_create]
  unfold Disk.writeAll
  cases disk.writeText name image with
  | error cause => rfl
  | ok next =>
      cases symbolsJson with
      | none => rfl
      | some name => exact performed_create name json next

/-- Whether an action fulfils a plan, apart from what it prints. -/
def Fulfils (action : ExceptT Failure (StateM Disk) Unit)
    (plan : Except Failure (List (Text × Text))) (disk : Disk) : Prop :=
  ∃ output, performed action disk = (disk.fulfil plan).map id (·.saying output disk.complaints)

/-- An action that leaves the disk alone belongs to the planning. -/
theorem Fulfils.bind {action : ExceptT Failure (StateM Disk) α} {outcome : Except Failure α}
    {next : α → ExceptT Failure (StateM Disk) Unit}
    {plan : α → Except Failure (List (Text × Text))} {disk : Disk}
    (hAction : performed action disk = (outcome, disk))
    (hNext : ∀ a, Fulfils (next a) (plan a) disk) :
    Fulfils (action >>= next) (outcome >>= plan) disk := by
  rw [Fulfils, performed_bind, hAction]
  cases outcome with
  | error failure => exact ⟨disk.output, rfl⟩
  | ok a => exact hNext a

/-- A request to assemble comes to its plan. -/
theorem fulfils_assemble (options : Options) (disk : Disk) :
    Fulfils (assemble options) (options.plan disk) disk := by
  apply Fulfils.bind (performed_fileSettings options disk)
  intro said
  have hOverride : performed (ExceptT.mk (pure (options.override said))) disk =
      (options.override said, disk) := rfl
  apply Fulfils.bind hOverride
  intro settings
  apply Fulfils.bind (performed_readSource options.input disk)
  intro source
  -- The listing is printed from here on, so the disk is no longer quite the same.
  obtain ⟨output, hAssembled⟩ :=
    performed_assembleAndList settings.sizing options.noListing source disk
  refine ⟨output, ?_⟩
  rw [performed_bind, hAssembled]
  cases (Assembly.run settings.sizing .discard source).result with
  | error error => rfl
  | ok assembly =>
      exact (performed_create_results _ _ _ _ _).trans (Disk.writeAll_saying _ _ _ _)

end Performed

/-- What the command line does to files, and its exit code, are what the request comes to. -/
theorem run_eq_carryOut (arguments : List Text) (disk : Disk) :
    ∃ output complaints, (run arguments : StateM Disk UInt32).run disk =
      ((request arguments).carryOut disk).map id (·.saying output complaints) := by
  unfold run
  cases request arguments with
  | misuse => exact ⟨disk.output, disk.complaints, rfl⟩
  | information => exact ⟨disk.output, disk.complaints, rfl⟩
  | assemble options =>
      obtain ⟨output, hPerformed⟩ := fulfils_assemble options disk
      unfold performed at hPerformed
      dsimp only
      rw [StateT.run_bind, hPerformed, Request.carryOut]
      rcases disk.fulfil (options.plan disk) with ⟨failure | _, final⟩
      · exact ⟨output, disk.complaints ++ [failure.complaint], rfl⟩
      · exact ⟨output, disk.complaints, rfl⟩

end TwoPass.CommandLine
