import TwoPass.Assembly.Listing
import TwoPass.Assembly.Step

namespace TwoPass

/-- What an assembly leaves behind, whether it succeeds or not: the events told, the records
taken in full, the bytes of the listing, and the result. -/
structure Run (α : Type) where
  events : List Event
  records : List Record
  listing : List UInt8
  result : Except AssemblyError α

namespace Run

variable {α β : Type}

def failed (error : AssemblyError) : Run α := ⟨[], [], [], .error error⟩

def afterEvents (events : List Event) (run : Run α) : Run α :=
  { run with events := events ++ run.events }

/-- The run with a record in front that was taken in full. -/
def afterRecord (records : List Record) (bytes : List UInt8) (run : Run α) : Run α :=
  { run with records := records ++ run.records, listing := bytes ++ run.listing }

def map (f : α → β) (run : Run α) : Run β :=
  { run with
    result := match run.result with
      | .ok a => .ok (f a)
      | .error e => .error e }

end Run

namespace State

def doneEvents (pass : Pass) (state : State) : List Event :=
  [.passDone pass state.counter.toNat state.symbols.userSymbols.length]

def sizeLines (sizing : Sizing) (state : State) : List StreamLine → Logged AssemblyError State
  | [] => do
    Logged.tell (state.doneEvents .sizing)
    pure state
  | line :: rest => do
    let (state, _) ← state.step sizing .sizing line
    sizeLines sizing state rest

/-- The emitting pass from a state on. After each line its record goes to the sink, and a sink
that fails ends the pass. -/
def emitLines (sizing : Sizing) (state : State) (sink : Sink) : List StreamLine → Run State
  | [] => ⟨state.doneEvents .emit, [], [], .ok state⟩
  | line :: rest =>
    let address := state.counter
    let ⟨events, result⟩ := state.step sizing .emit line
    match result with
    | .error error => (Run.failed error).afterEvents events
    | .ok (state, words) =>
      let record : Record := ⟨address, words, line⟩
      let run := match sink.accept record.bytes with
        | (written, none) => (Run.failed .listing).afterRecord [] written
        | (written, some next) =>
          (emitLines sizing state next rest).afterRecord (sink.kept record) written
      run.afterEvents events

end State

structure Assembly where
  symbols : SymbolTable
  image : Image

namespace Assembly

/-- The sweep and the sizing pass: the stream, and the state in which the emitting pass begins. -/
def prepare (sizing : Sizing) (source : Text) :
    Logged AssemblyError (List StreamLine × State) := do
  let (stream, macros) ← sweep source
  Logged.tell [.swept stream.length macros.size]
  let state ← State.initial.sizeLines sizing stream
  pure (stream, { state with counter := 0 })

def run (sizing : Sizing) (sink : Sink) (source : Text) : Run Assembly :=
  let ⟨events, prepared⟩ := prepare sizing source
  match prepared with
  | .error error => (Run.failed error).afterEvents events
  | .ok (stream, state) =>
    ((state.emitLines sizing sink stream).map fun state =>
      { symbols := state.symbols, image := state.image }).afterEvents events

end Assembly

end TwoPass
