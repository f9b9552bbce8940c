import TwoPass.Proofs.Assembly.Walk
import TwoPass.Proofs.Image.Placement

/-! The listing as a full account of the image. Every word that the emitting pass writes stands
in a record, and every word of a record was written where the record says, so the image can be
rebuilt from the records alone. -/
namespace TwoPass

/-- The words of a record with the cells that they go to. -/
def Record.placements (record : Record) : List (UInt16 × UInt16) :=
  TwoPass.placements record.address.toNat record.words

namespace State

variable {sizing : Sizing} {state next : State} {line : StreamLine} {words : List UInt16}

/-- The emitting pass writes the words of a line at the counter in front of it, and nothing
else. -/
theorem image_of_step (h : (state.step sizing .emit line).result = .ok (next, words)) :
    next.image = state.image.write state.counter.toNat words := by
  obtain ⟨statement, _, hPerforms⟩ := step_eq_ok_iff.mp h
  cases hPerforms <;> simp

/-- The counter moves past the words of a line that is no origin. -/
theorem counter_of_step (h : (state.step sizing .emit line).result = .ok (next, words))
    (hStatement : ∀ expression, line.statement ≠ .ok (.origin expression)) :
    next.counter = state.counter + .ofNat words.length := by
  obtain ⟨statement, hParsed, hPerforms⟩ := step_eq_ok_iff.mp h
  cases hPerforms with
  | blank | constant => simp
  | origin => exact absurd hParsed (hStatement _)
  | write => simp

/-- Behind an origin the counter is the value of its expression, in either pass. -/
theorem counter_of_origin {pass : Pass} {expression : Text}
    (h : (state.step sizing pass line).result = .ok (next, words))
    (hStatement : line.statement = .ok (.origin expression)) :
    ∃ value, (state.labelled line).evaluate expression = .ok value ∧
      next.counter = value.toUInt32 := by
  obtain ⟨statement, hParsed, hPerforms⟩ := step_eq_ok_iff.mp h
  rw [hStatement] at hParsed
  cases hParsed
  cases hPerforms with
  | origin _ hValue => exact ⟨_, hValue, rfl⟩
  | measure hPlaces | write hPlaces => cases hPlaces

end State

namespace Walk

variable {sizing : Sizing} {state final : State} {lines : List StreamLine} {records : List Record}

/-- The sizing pass writes nothing. -/
theorem image_eq (walk : Walk sizing .sizing state lines records final) :
    final.image = state.image := by
  induction walk with
  | nil => rfl
  | cons first others ih =>
      obtain ⟨statement, _, hPerforms⟩ := State.step_eq_ok_iff.mp first
      rw [ih]
      cases hPerforms <;> simp

theorem cell_eq (walk : Walk sizing .emit state lines records final) (target : UInt16) :
    final.image.cell target =
      (lastPlaced target (records.flatMap Record.placements)).or (state.image.cell target) := by
  induction walk with
  | nil => simp
  | cons first others ih =>
      rw [ih, State.image_of_step first, Image.cell_write, List.flatMap_cons, lastPlaced_append,
        Option.or_assoc]
      rfl

theorem covers {written : Finset UInt16} (walk : Walk sizing .emit state lines records final)
    (h : state.image.Covers written) :
    final.image.Covers
      (written ∪ ((records.flatMap Record.placements).map Prod.fst).toFinset) := by
  induction walk generalizing written with
  | nil => simpa using h
  | @cons state next final line rest words records first others ih =>
      have hFirst := h.write state.counter.toNat words
      rw [← State.image_of_step first] at hFirst
      rw [List.flatMap_cons, List.map_append, List.toFinset_append, ← Finset.union_assoc]
      exact ih hFirst

/-- Where the record after another one lies. -/
theorem address_next {i : Nat} {record following : Record} {sink : Sink}
    (walk : Walk sizing .emit state lines records final) (hTakes : sink.takes records = true)
    (hRecord : records[i]? = some record) (hFollowing : records[i + 1]? = some following) :
    (∀ expression, record.line.statement = .ok (.origin expression) →
      ∃ before value, (state.emitLines sizing sink (lines.take i)).result = .ok before ∧
        (before.labelled record.line).evaluate expression = .ok value ∧
        following.address.toNat = value.toNat) ∧
    ((∀ expression, record.line.statement ≠ .ok (.origin expression)) →
      following.address.toNat = (record.address.toNat + record.words.length) % 2 ^ 32) := by
  obtain ⟨before, next, hBefore, hAddress, hStep, hAfter⟩ := walk.step_at hRecord
  have hNext : following.address = next.counter := by
    have hFirst : (records.drop (i + 1))[0]? = some following := by
      rw [List.getElem?_drop]
      exact hFollowing
    obtain ⟨start, _, hStart, hEq, _, _⟩ := hAfter.step_at hFirst
    rw [List.take_zero] at hStart
    cases hStart
    exact hEq
  rw [hNext]
  constructor
  · intro expression hStatement
    obtain ⟨value, hValue, hCounter⟩ := State.counter_of_origin hStep hStatement
    refine ⟨before, value, State.emitLines_eq_ok_iff.mpr ⟨_, hBefore, ?_⟩, hValue, ?_⟩
    · exact sink.takes_take hTakes i
    · rw [hCounter, UInt16.toNat_toUInt32]
  · intro hStatement
    rw [hAddress, State.counter_of_step hStep hStatement, State.toNat_add_ofNat]

end Walk

/-- Records and image of an assembly that succeeds. There is one record for each line of the
stream, in order. The first address is zero, and each later one follows the words of the record
in front of it, unless that is an origin, behind which it is the value of the origin. Addresses
wrap around at thirty-two bits. Each cell of the image holds the last word that the records place
in it, and `used` counts these cells. The records are those of a writer without a limit; every
other writer that lets the assembly succeed has the same ones. -/
theorem listing_and_image_agree {sizing : Sizing} {sink : Sink} {source : Text}
    {assembly : Assembly} (hRun : (Assembly.run sizing sink source).result = .ok assembly) :
    ∃ stream start records,
      (Assembly.prepare sizing source).result = .ok (stream, start) ∧
      (Assembly.run sizing (.writer none) source).records = records ∧
      (sink ≠ .discard → (Assembly.run sizing sink source).records = records) ∧
      records.map Record.line = stream ∧
      (∀ record, records.head? = some record → record.address = 0) ∧
      (∀ i record following, records[i]? = some record → records[i + 1]? = some following →
        (∀ expression, record.line.statement = .ok (.origin expression) →
          ∃ before value,
            (start.emitLines sizing (.writer none) (stream.take i)).result = .ok before ∧
            (before.labelled record.line).evaluate expression = .ok value ∧
            following.address.toNat = value.toNat) ∧
        ((∀ expression, record.line.statement ≠ .ok (.origin expression)) →
          following.address.toNat = (record.address.toNat + record.words.length) % 2 ^ 32)) ∧
      (∀ address, assembly.image.read address =
        (lastPlaced address (records.flatMap Record.placements)).getD 0) ∧
      assembly.image.used = ((records.flatMap Record.placements).map Prod.fst).toFinset.card := by
  obtain ⟨stream, start, final, records, hPrepare, walk, hTakes, rfl⟩ :=
    Assembly.run_eq_ok_iff.mp hRun
  have hUnlimited : (Sink.writer none).takes records = true := Sink.takes_unlimited records
  obtain ⟨macros, sized, _, hSized, rfl⟩ := Assembly.prepare_eq_ok_iff.mp hPrepare
  obtain ⟨sizes, hSizing⟩ := State.sizeLines_eq_ok_iff.mp hSized
  have hEmpty : sized.image = .empty := hSizing.image_eq
  refine ⟨stream, _, records, hPrepare, Assembly.records_run hPrepare walk hUnlimited, ?_,
    walk.map_line, ?_, ?_, ?_, ?_⟩
  · intro hSink
    rw [Assembly.records_run hPrepare walk hTakes]
    cases sink with
    | discard => exact absurd rfl hSink
    | writer room => rfl
  · intro record hRecord
    rw [List.head?_eq_getElem?] at hRecord
    obtain ⟨before, _, hBefore, hAddress, _, _⟩ := walk.step_at hRecord
    rw [List.take_zero] at hBefore
    cases hBefore
    exact hAddress
  · intro i record following hRecord hFollowing
    exact walk.address_next hUnlimited hRecord hFollowing
  · intro address
    have hCell := walk.cell_eq address
    dsimp only at hCell
    rw [hEmpty, Image.cell_empty, Option.or_none] at hCell
    rw [Image.read, hCell]
  · have hStart : (sized.image).Covers ∅ := hEmpty ▸ Image.covers_empty
    have hCovers := walk.covers hStart
    rw [Finset.empty_union] at hCovers
    exact hCovers.used_eq

/-- A program that writes over the top of the memory and then again at the bottom. -/
def wrapped : Text := "ORG 0xFFFF\nWORD 1, 2\nORG 0\nWORD 3".toList

/-- The listing of this program shows what its image holds: two cells, of which the first one was
written twice. -/
theorem listing_and_image_agree_wrapped :
    ∃ assembly, (Assembly.run .compatible (.writer none) wrapped).result = .ok assembly ∧
      assembly.image.read 0 = 3 ∧ assembly.image.read 0xFFFF = 1 ∧ assembly.image.used = 2 := by
  obtain ⟨assembly, hRun⟩ : ∃ assembly,
      (Assembly.run .compatible (.writer none) wrapped).result = .ok assembly :=
    exists_eq_ok (by decide +kernel)
  have hRecords : (Assembly.run .compatible (.writer none) wrapped).records =
      [⟨0, [], ⟨1, "ORG 0xFFFF".toList⟩⟩, ⟨0xFFFF, [1, 2], ⟨2, "WORD 1, 2".toList⟩⟩,
        ⟨0x10001, [], ⟨3, "ORG 0".toList⟩⟩, ⟨0, [3], ⟨4, "WORD 3".toList⟩⟩] := by
    decide +kernel
  obtain ⟨_, _, records, _, hKept, _, _, _, _, hRead, hUsed⟩ := listing_and_image_agree hRun
  rw [hRecords] at hKept
  subst hKept
  exact ⟨assembly, hRun, (hRead 0).trans (by decide), (hRead 0xFFFF).trans (by decide),
    hUsed.trans (by decide)⟩

end TwoPass
