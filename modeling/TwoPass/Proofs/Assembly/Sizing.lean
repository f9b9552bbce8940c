import TwoPass.Proofs.Assembly.Walk

/-! The two ways to measure instructions. They differ on instructions with a single operand, by
one word, and on nothing else. Only the sizing pass measures, so a program without such
instructions cannot tell them apart. -/
namespace TwoPass

/-- Whether a line has the mnemonic of an instruction and a single operand, which may be empty. -/
def StreamLine.hasOneOperand (line : StreamLine) : Bool :=
  ((Line.parse line.text).mnemonic.bind Instruction.slot?).isSome &&
    (Line.parse line.text).operands.length == 1

namespace Line

variable {line : Line} {predicate : Predicate} {slot : Fin 32} {operands : Operands Text}

/-- The mnemonic of an instruction is no directive. -/
theorem ne_directive_of_slot? {mnemonic : Text} (h : Instruction.slot? mnemonic = some slot) :
    ∀ directive ∈ ["EQU".toList, "ORG".toList, "WORD".toList, "STRING".toList, "BSTRING".toList],
      mnemonic ≠ directive := by
  have hNone : ∀ directive ∈
      ["EQU".toList, "ORG".toList, "WORD".toList, "STRING".toList, "BSTRING".toList],
      Instruction.slot? directive = none := by decide
  rintro directive hMem rfl
  rw [hNone mnemonic hMem] at h
  cases h

/-- A mnemonic with a slot is never a directive. -/
theorem statement_of_slot? {mnemonic : Text} (hMnemonic : line.mnemonic = some mnemonic)
    (hSlot : Instruction.slot? mnemonic = some slot) :
    line.statement = line.instructionOrConstant mnemonic := by
  have hNe := ne_directive_of_slot? hSlot
  rw [statement, hMnemonic]
  dsimp only
  rw [if_neg (hNe _ (by simp)), if_neg (hNe _ (by simp)), if_neg (hNe _ (by simp)),
    if_neg (hNe _ (by simp)), if_neg (hNe _ (by simp))]

theorem constantOr_ne_instruction {name expression : Text} :
    line.constantOr name expression ≠ .ok (.instruction predicate slot operands) := by
  intro h
  rcases constantOr_eq_ok_iff.mp h with ⟨-, hBlank⟩ | ⟨-, -, hConstant⟩
  · cases hBlank
  · cases hConstant

/-- A line asks for an instruction exactly when its mnemonic is one of an instruction and it has
one to three operands. -/
theorem statement_eq_instruction_iff :
    line.statement = .ok (.instruction predicate slot operands) ↔
      line.predicate = predicate ∧ line.mnemonic.bind Instruction.slot? = some slot ∧
        Operands.ofList? line.operands = some operands := by
  cases hMnemonic : line.mnemonic with
  | none => simp [statement, hMnemonic]
  | some mnemonic =>
      cases hSlot : Instruction.slot? mnemonic with
      | some slot' =>
          rw [statement_of_slot? hMnemonic hSlot, instructionOrConstant, hSlot]
          cases hOperands : Operands.ofList? line.operands with
          | none => simp
          | some operands' => simp [hSlot]
      | none =>
          have hOther : line.statement ≠ .ok (.instruction predicate slot operands) := by
            unfold statement instructionOrConstant
            simp only [hMnemonic, hSlot]
            repeat' split
            all_goals first | exact constantOr_ne_instruction | simp
          simp [hOther, hSlot]

end Line

theorem StreamLine.hasOneOperand_iff {line : StreamLine} :
    line.hasOneOperand = true ↔ ∃ predicate slot operand,
      line.statement = .ok (.instruction predicate slot (.one operand)) := by
  simp only [hasOneOperand, statement, Line.statement_eq_instruction_iff, Bool.and_eq_true,
    Option.isSome_iff_exists, beq_iff_eq, List.length_eq_one_iff]
  constructor
  · rintro ⟨⟨slot, hSlot⟩, operand, hOperand⟩
    exact ⟨_, slot, operand, rfl, hSlot, by rw [hOperand]; rfl⟩
  · rintro ⟨_, slot, operand, -, hSlot, hOperands⟩
    refine ⟨⟨slot, hSlot⟩, operand, ?_⟩
    generalize (Line.parse line.text).operands = texts at hOperands
    unfold Operands.ofList? at hOperands
    split at hOperands
    all_goals simp_all

/-- What the exact measure of a line adds to the compatible one. -/
theorem StreamLine.size_exact {line : StreamLine} {statement : Statement}
    (h : line.statement = .ok statement) :
    statement.size .exact =
      statement.size .compatible + if line.hasOneOperand = true then 1 else 0 := by
  cases statement with
  | instruction predicate slot operands =>
      have hOne := line.hasOneOperand_iff
      rw [h] at hOne
      cases operands with
      | one operand =>
          rw [if_pos (hOne.mpr ⟨predicate, slot, operand, rfl⟩)]
          rfl
      | two | three =>
          rw [if_neg (by simp [hOne])]
          rfl
  | blank | constant | origin | data | characters =>
      have hOne : ¬line.hasOneOperand = true := by simp [line.hasOneOperand_iff, h]
      rw [if_neg hOne]
      rfl

theorem Logged.bind_congr {ε α β : Type} {x : Logged ε α} {f g : α → Logged ε β}
    (h : ∀ a, x.result = .ok a → f a = g a) : x >>= f = x >>= g := by
  cases hResult : x.result with
  | error e => simp [Bind.bind, hResult]
  | ok a => simp [Bind.bind, hResult, h a hResult]

namespace State

variable {state : State} {line : StreamLine} {lines : List StreamLine}

/-- The emitting pass does not measure. -/
theorem step_emit_eq (sizing other : Sizing) :
    state.step sizing .emit line = state.step other .emit line := by
  apply Logged.bind_congr
  intro _ _
  apply Logged.bind_congr
  intro labelled _
  cases (Line.parse line.text).statement with
  | error malformed => rfl
  | ok statement => cases statement <;> rfl

/-- The two sizings measure all other lines alike. -/
theorem step_compatible_eq (h : line.hasOneOperand = false) :
    state.step .compatible .sizing line = state.step .exact .sizing line := by
  apply Logged.bind_congr
  intro _ _
  apply Logged.bind_congr
  intro labelled _
  cases hStatement : (Line.parse line.text).statement with
  | error malformed => rfl
  | ok statement =>
      have hSize : statement.size .exact = statement.size .compatible := by
        simpa [h] using line.size_exact hStatement
      cases statement with
      | blank | constant | origin => rfl
      | data | characters | instruction => simp only [Statement.perform, hSize]

theorem sizeLines_compatible_eq (h : ∀ line ∈ lines, line.hasOneOperand = false) :
    state.sizeLines .compatible lines = state.sizeLines .exact lines := by
  induction lines generalizing state with
  | nil => rfl
  | cons line rest ih =>
      rw [sizeLines, sizeLines, step_compatible_eq (h line (by simp))]
      apply Logged.bind_congr
      intro next _
      exact ih fun later hMem => h later (by simp [hMem])

/-- The emitting pass does not measure. -/
theorem emitLines_eq {sink : Sink} (sizing other : Sizing) :
    state.emitLines sizing sink lines = state.emitLines other sink lines := by
  induction lines generalizing state sink with
  | nil => rfl
  | cons line rest ih =>
      simp only [emitLines_cons, step_emit_eq sizing other, ih]

end State

/-- A program whose stream has no instruction with a single operand comes out the same under both
measures: the same records and listing, the same events, and the same symbols and image or the
same error. -/
theorem sizings_agree {source : Text}
    (hPlain : ∀ stream macros, (sweep source).result = .ok (stream, macros) →
      ∀ line ∈ stream, line.hasOneOperand = false) (sink : Sink) :
    Assembly.run .compatible sink source = Assembly.run .exact sink source := by
  have hPrepare : Assembly.prepare .compatible source = Assembly.prepare .exact source := by
    apply Logged.bind_congr
    intro ⟨stream, macros⟩ hSweep
    apply Logged.bind_congr
    intro _ _
    rw [State.sizeLines_compatible_eq (hPlain stream macros hSweep)]
  simp only [Assembly.run, hPrepare, State.emitLines_eq .compatible .exact]

/-- A program that calls a macro and whose origin depends on a label. -/
def relocated : Text :=
  "MACRO load(reg)\nmov reg, r0, end\nENDMACRO\nload(r1)\nmid: ORG mid + 2\nend: add r1, r2".toList

def relocatedLines : List StreamLine :=
  [⟨1, "# MACRO load(reg)".toList⟩, ⟨2, "# mov reg, r0, end".toList⟩, ⟨3, "# ENDMACRO".toList⟩,
    ⟨4, "#load(r1)".toList⟩, ⟨4, "mov r1, r0, end".toList⟩, ⟨5, "mid: ORG mid + 2".toList⟩,
    ⟨6, "end: add r1, r2".toList⟩]

theorem sizings_agree_relocated :
    (∃ macros, (sweep relocated).result = .ok (relocatedLines, macros)) ∧
      (∀ line ∈ relocatedLines, line.hasOneOperand = false) ∧
      (Assembly.run .compatible (.writer none) relocated).result.toOption.isSome = true ∧
      Assembly.run .compatible (.writer none) relocated =
        Assembly.run .exact (.writer none) relocated := by
  obtain ⟨macros, hSweep⟩ :
      ∃ macros, (sweep relocated).result = .ok (relocatedLines, macros) := ⟨_, by rfl⟩
  have hPlain : ∀ line ∈ relocatedLines, line.hasOneOperand = false := by decide +kernel
  refine ⟨⟨macros, hSweep⟩, hPlain, by decide +kernel, sizings_agree ?_ _⟩
  intro stream macros' hSweep'
  rw [hSweep] at hSweep'
  cases hSweep'
  exact hPlain

end TwoPass
