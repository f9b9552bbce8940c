import TwoPass.Proofs.Assembly.Walk

/-! Listings that are cut short. Bytes go to a writer in the order of the records, so a writer with
a limit gets the first bytes of the whole listing, and its failure is the only thing that can come
in front of what the assembly would have ended with. The passes never look at the sink. -/
namespace TwoPass

/-- The bytes that records make one below the other. -/
def Listing.bytes (records : List Record) : List UInt8 := records.flatMap Record.bytes

theorem Listing.bytes_cons (record : Record) (rest : List Record) :
    bytes (record :: rest) = record.bytes ++ bytes rest := rfl

theorem Listing.bytes_append (records others : List Record) :
    bytes (records ++ others) = bytes records ++ bytes others := List.flatMap_append

/-- Whether a sink has room for a number of bytes. -/
def Sink.hasRoom : Sink → Nat → Bool
  | .discard, _ | .writer none, _ => true
  | .writer (some room), count => count ≤ room

/-- A sink takes records if it has room for their bytes, however these are divided. -/
theorem Sink.takes_eq_hasRoom (sink : Sink) (records : List Record) :
    sink.takes records = sink.hasRoom (Listing.bytes records).length := by
  induction records generalizing sink with
  | nil =>
      rcases sink with _ | ⟨_ | room⟩
      all_goals simp [takes, hasRoom, Listing.bytes]
  | cons record rest ih =>
      rcases sink with _ | ⟨_ | room⟩
      · exact ih .discard
      · exact ih (.writer none)
      · rw [takes, accept, Listing.bytes_cons, List.length_append, hasRoom]
        by_cases hFits : record.bytes.length ≤ room
        · rw [if_pos hFits]
          dsimp only
          rw [ih, hasRoom, decide_eq_decide]
          omega
        · rw [if_neg hFits, eq_comm]
          dsimp only
          rw [decide_eq_false_iff_not]
          omega

/-- A run whose listing was cut at some room, seen beside the run without a limit. As long as the
listing fits, the two are the same. The records taken in full are those that end within the room. -/
structure Run.Cut {α : Type} (room : Nat) (full cut : Run α) : Prop where
  fits : full.listing.length ≤ room → cut = full
  result : room < full.listing.length → cut.result = .error .listing
  listing : cut.listing = full.listing.take room
  records : ∀ i record, cut.records[i]? = some record ↔
    full.records[i]? = some record ∧ (Listing.bytes (full.records.take (i + 1))).length ≤ room

namespace Run.Cut

variable {α β : Type} {room : Nat} {full cut : Run α}

/-- A run that delivers nothing cannot be cut. -/
theorem silent {run : Run α} (hRecords : run.records = []) (hListing : run.listing = []) :
    Cut room run run := by
  constructor
  · intro _
    rfl
  · intro hRoom
    simp [hListing] at hRoom
  · simp [hListing]
  · simp [hRecords]

theorem afterEvents (h : Cut room full cut) (events : List Event) :
    Cut room (full.afterEvents events) (cut.afterEvents events) := by
  constructor
  · intro hFits
    rw [h.fits hFits]
  · exact h.result
  · exact h.listing
  · exact h.records

theorem map (h : Cut room full cut) (f : α → β) : Cut room (full.map f) (cut.map f) := by
  constructor
  · intro hFits
    rw [h.fits hFits]
  · intro hRoom
    simp only [Run.map, h.result hRoom]
  · exact h.listing
  · exact h.records

/-- A record that fits leaves less room for those behind it. -/
theorem afterRecord {record : Record} (hFits : record.bytes.length ≤ room)
    (h : Cut (room - record.bytes.length) full cut) :
    Cut room (full.afterRecord [record] record.bytes) (cut.afterRecord [record] record.bytes) := by
  have hLength : (full.afterRecord [record] record.bytes).listing.length =
      record.bytes.length + full.listing.length := List.length_append
  constructor
  · intro hRoom
    rw [h.fits (by omega)]
  · intro hRoom
    exact h.result (by omega)
  · simp only [Run.afterRecord, h.listing, List.take_append, List.take_of_length_le hFits]
  · intro i other
    cases i with
    | zero => simp [Run.afterRecord, Listing.bytes, hFits]
    | succ i =>
        have hBytes : (Listing.bytes (record :: full.records.take (i + 1))).length ≤ room ↔
            (Listing.bytes (full.records.take (i + 1))).length ≤ room - record.bytes.length := by
          rw [Listing.bytes_cons, List.length_append]
          omega
        simp only [Run.afterRecord, List.singleton_append, List.getElem?_cons_succ,
          List.take_succ_cons, h.records, hBytes]

/-- A record that does not fit is the last thing the writer sees of any run. -/
theorem refused {record : Record} (hRoom : room < record.bytes.length) :
    Cut room (full.afterRecord [record] record.bytes)
      ((Run.failed .listing).afterRecord [] (record.bytes.take room)) := by
  have hLength : (full.afterRecord [record] record.bytes).listing.length =
      record.bytes.length + full.listing.length := List.length_append
  constructor
  · intro hFits
    omega
  · intro _
    rfl
  · simp only [Run.afterRecord, Run.failed, List.append_nil,
      List.take_append_of_le_length (Nat.le_of_lt hRoom)]
  · intro i other
    -- Every initial part of the records holds the one that does not fit.
    have hBeyond : ¬(Listing.bytes ((full.afterRecord [record] record.bytes).records.take
        (i + 1))).length ≤ room := by
      simp only [Run.afterRecord, List.singleton_append, List.take_succ_cons, Listing.bytes_cons,
        List.length_append]
      omega
    constructor
    · intro hNone
      cases hNone
    · rintro ⟨_, hWithin⟩
      exact absurd hWithin hBeyond

end Run.Cut

namespace State

variable {sizing : Sizing} {state : State} {lines : List StreamLine}

/-- The induction goes along the lines, with the room that is left. -/
theorem cut_emitLines (room : Nat) :
    Run.Cut room (state.emitLines sizing (.writer none) lines)
      (state.emitLines sizing (.writer (some room)) lines) := by
  induction lines generalizing state room with
  | nil => exact .silent rfl rfl
  | cons line rest ih =>
      rw [emitLines_cons, emitLines_cons]
      apply Run.Cut.afterEvents
      cases (state.step sizing .emit line).result with
      | error error => exact .silent rfl rfl
      | ok processed =>
          obtain ⟨next, words⟩ := processed
          dsimp only [Sink.accept, Sink.kept]
          by_cases hFits : (Record.bytes ⟨state.counter, words, line⟩).length ≤ room
          · rw [if_pos hFits]
            exact (ih _).afterRecord hFits
          · rw [if_neg hFits]
            exact .refused (by omega)

/-- Without a limit, the listing is made of whole records. -/
theorem listing_emitLines :
    (state.emitLines sizing (.writer none) lines).listing =
      Listing.bytes (state.emitLines sizing (.writer none) lines).records := by
  induction lines generalizing state with
  | nil => rfl
  | cons line rest ih =>
      rw [emitLines_cons]
      cases (state.step sizing .emit line).result with
      | error error => rfl
      | ok processed =>
          obtain ⟨next, words⟩ := processed
          exact congrArg (Record.bytes ⟨state.counter, words, line⟩ ++ ·) ih

theorem result_emitLines_discard :
    (state.emitLines sizing .discard lines).result =
      (state.emitLines sizing (.writer none) lines).result := by
  induction lines generalizing state with
  | nil => rfl
  | cons line rest ih =>
      rw [emitLines_cons, emitLines_cons]
      cases (state.step sizing .emit line).result with
      | error error => rfl
      | ok processed => exact ih

end State

namespace Assembly

variable {sizing : Sizing} {source : Text}

/-- A source that does not get through the sizing pass fails in the same way for every sink. -/
theorem run_of_prepare_error {error : AssemblyError} (sink : Sink)
    (h : (prepare sizing source).result = .error error) :
    run sizing sink source = (Run.failed error).afterEvents (prepare sizing source).events := by
  rw [run]
  rcases hLogged : prepare sizing source with ⟨events, result⟩
  rw [hLogged] at h
  cases h
  rfl

theorem result_run_discard (sizing : Sizing) (source : Text) :
    (run sizing .discard source).result = (run sizing (.writer none) source).result := by
  cases hPrepare : (prepare sizing source).result with
  | error error => rw [run_of_prepare_error _ hPrepare, run_of_prepare_error _ hPrepare]
  | ok prepared =>
      obtain ⟨stream, start⟩ := prepared
      rw [run_of_prepare hPrepare, run_of_prepare hPrepare]
      simp only [Run.afterEvents, Run.map, State.result_emitLines_discard]

end Assembly

/-- A writer with a limit beside one without. If the whole listing fits, nothing differs; otherwise
the outcome is the failure of the listing, whatever the outcome would have been. Either way the
bytes written are the first ones of the whole listing, which is made of its records, and the records
taken in full are those that end within the limit. Without a listing the outcome is the same as with
a writer that never fails. -/
theorem limited_listing_is_cut (sizing : Sizing) (source : Text) (room : Nat) :
    Run.Cut room (Assembly.run sizing (.writer none) source)
      (Assembly.run sizing (.writer (some room)) source) ∧
    (Assembly.run sizing (.writer none) source).listing =
      Listing.bytes (Assembly.run sizing (.writer none) source).records ∧
    (Assembly.run sizing .discard source).result =
      (Assembly.run sizing (.writer none) source).result := by
  refine ⟨?_, ?_, Assembly.result_run_discard sizing source⟩
  · cases hPrepare : (Assembly.prepare sizing source).result with
    | error error =>
        rw [Assembly.run_of_prepare_error _ hPrepare, Assembly.run_of_prepare_error _ hPrepare]
        exact .silent rfl rfl
    | ok prepared =>
        obtain ⟨stream, start⟩ := prepared
        rw [Assembly.run_of_prepare hPrepare, Assembly.run_of_prepare hPrepare]
        exact ((State.cut_emitLines room).map _).afterEvents _
  · cases hPrepare : (Assembly.prepare sizing source).result with
    | error error =>
        rw [Assembly.run_of_prepare_error _ hPrepare]
        rfl
    | ok prepared =>
        obtain ⟨stream, start⟩ := prepared
        rw [Assembly.run_of_prepare hPrepare]
        exact State.listing_emitLines

end TwoPass
