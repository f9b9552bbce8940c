import TwoPass.Proofs.Expression.Grammar

/-! What the reader of expressions looks at before it goes on. It skips gaps and then decides on
two characters, which is enough: no operator is the start of a longer one that an operand could
complete. -/
namespace TwoPass.Expression

/-- A text is a gap and what starts with the next token. -/
theorem exists_gap (s : Text) : ∃ gap, gap.all isGap = true ∧ s = gap ++ skipGaps s :=
  ⟨s.takeWhile isGap, List.all_takeWhile, List.takeWhile_append_dropWhile.symm⟩

/-- How wide a gap is does not matter. -/
theorem skipGaps_append {gap : Text} (hGap : gap.all isGap = true) (s : Text) :
    skipGaps (gap ++ s) = skipGaps s :=
  List.dropWhile_append_of_pos (List.all_eq_true.mp hGap)

theorem skipGaps_of_all {gap : Text} (hGap : gap.all isGap = true) : skipGaps gap = [] := by
  have hAppend := skipGaps_append hGap []
  rwa [List.append_nil] at hAppend

theorem skipGaps_cons {c : Char} (hToken : isGap c = false) (s : Text) :
    skipGaps (c :: s) = c :: s := by
  simp [skipGaps, hToken]

/-- What is left starts with no further gap. -/
theorem isGap_of_mem_head?_skipGaps (s : Text) : ∀ c ∈ (skipGaps s).head?, isGap c = false := by
  intro c hHead
  have hNot := List.head?_dropWhile_not isGap s
  rw [← skipGaps, Option.mem_def.mp hHead] at hNot
  simpa using hNot

/-- A gap ends a word. -/
theorem isNameChar_of_isGap {c : Char} (hGap : isGap c = true) : isNameChar c = false := by
  simp only [isGap, Bool.or_eq_true, beq_iff_eq] at hGap
  rcases hGap with (((rfl | rfl) | rfl) | rfl) | rfl <;> decide

/-- No operand starts with a gap, so none is lost by skipping. -/
theorem Level.isGap_of_opens {level : Level} {c : Char} (hOpens : level.opens c = true) :
    isGap c = false := by
  have hLoosest := or_opens hOpens
  simp only [opens, Bool.or_eq_true, beq_iff_eq] at hLoosest
  rcases hLoosest with ((rfl | rfl) | rfl) | rfl | hName
  · decide
  · decide
  · decide
  · decide
  · cases hGap : isGap c with
    | false => rfl
    | true => rw [isNameChar_of_isGap hGap] at hName; cases hName

/-- What stands behind an operator starts with a gap or with an operand, so it never makes the
operator longer. -/
def startsOperand : Text → Bool
  | [] => false
  | c :: _ => isGap c || Level.or.opens c

/-- What starts an operand is not the second half of an operator of two marks. -/
theorem ne_of_startsOperand {mark : Char} {rest : Text} (hStart : startsOperand rest = true)
    (hMark : (isGap mark || Level.or.opens mark) = false) : rest.head? ≠ some mark := by
  cases rest with
  | nil => cases hStart
  | cons c rest =>
      intro hHead
      cases hHead
      rw [startsOperand, hMark] at hStart
      cases hStart

/-- Whatever follows, a spelled derivation starts as operands do. -/
theorem Spells.startsOperand {level : Level} {d : Derivation level} {s : Text}
    (hSpells : Spells d.tokens s) (rest : Text) : startsOperand (s ++ rest) = true := by
  obtain ⟨gap, c, tail, hGap, hOpens, rfl⟩ := d.exists_first hSpells
  cases gap with
  | nil => simp [Expression.startsOperand, Level.or_opens hOpens]
  | cons g gap =>
      simp only [List.all_cons, Bool.and_eq_true] at hGap
      simp [Expression.startsOperand, hGap.1]

namespace Level

/-- How many levels are tighter. -/
def rank : Level → Nat
  | .or => 8
  | .xor => 7
  | .and => 6
  | .shift => 5
  | .sum => 4
  | .product => 3
  | .signed => 2
  | .power => 1
  | .primary => 0

/-- The next tighter level is one rank down. -/
theorem rank_tighter (level : Level) : level.tighter.rank = level.rank - 1 := by
  cases level <;> rfl

/-- The operator that a level sees at the front of a text. -/
def joint : Level → Text → Joint
  | .or => orJoint
  | .xor => xorJoint
  | .and => andJoint
  | .shift => shiftJoint
  | .sum => sumJoint
  | .product => productJoint
  | .power => fun s => .orElse (double? '*' s) .power .none
  | .signed | .primary => fun _ => .none

end Level

section

variable {mark : Char} {s rest : Text}

/-- A single mark was taken off from behind a gap. -/
theorem single?_eq_some (h : single? mark s = some rest) :
    ∃ gap, gap.all isGap = true ∧ s = gap ++ mark :: rest := by
  obtain ⟨gap, hGap, hText⟩ := exists_gap s
  refine ⟨gap, hGap, ?_⟩
  unfold single? at h
  split at h
  · cases h
  · rename_i c tail hSkip
    split at h
    · rename_i hMark
      cases h
      rw [hText, hSkip, hMark.1]
    · cases h

/-- So were two marks. -/
theorem double?_eq_some (h : double? mark s = some rest) :
    ∃ gap, gap.all isGap = true ∧ s = gap ++ mark :: mark :: rest := by
  obtain ⟨gap, hGap, hText⟩ := exists_gap s
  refine ⟨gap, hGap, ?_⟩
  unfold double? at h
  split at h
  · rename_i c d tail hSkip
    split at h
    · rename_i hMark
      cases h
      rw [hText, hSkip, hMark.1, hMark.2]
    · cases h
  · cases h

end

/-- If an operator is found, then it is one of the level and the text starts with it. -/
def Joint.Spelled (level : Level) (s : Text) (found : Joint) : Prop :=
  ∀ op rest, found = .operator op rest →
    op.level = level ∧ ∃ gap, gap.all isGap = true ∧ s = gap ++ (op.spelling ++ rest)

namespace Joint.Spelled

variable {level : Level} {s : Text} {mark : Char} {op : BinaryOp} {otherwise : Joint}

theorem none : Spelled level s .none := by
  intro op rest h
  cases h

theorem refused (obstacle : Obstacle) : Spelled level s (.refused obstacle) := by
  intro op rest h
  cases h

/-- An operator that was found is spelled in front of the rest, if each alternative is. -/
theorem orElse {found : Option Text} (hLevel : op.level = level)
    (hFound : ∀ rest, found = some rest →
      ∃ gap, gap.all isGap = true ∧ s = gap ++ (op.spelling ++ rest))
    (hOtherwise : Spelled level s otherwise) : Spelled level s (.orElse found op otherwise) := by
  cases found with
  | none => exact hOtherwise
  | some beyond =>
      intro other rest h
      cases h
      exact ⟨hLevel, hFound beyond rfl⟩

/-- An operator of one mark. -/
theorem single (hLevel : op.level = level) (hMark : op.spelling = [mark])
    (hOtherwise : Spelled level s otherwise) :
    Spelled level s (.orElse (single? mark s) op otherwise) := by
  refine orElse hLevel ?_ hOtherwise
  rw [hMark]
  exact fun rest => single?_eq_some

/-- An operator of two marks, which are the same. -/
theorem double (hLevel : op.level = level) (hMark : op.spelling = [mark, mark])
    (hOtherwise : Spelled level s otherwise) :
    Spelled level s (.orElse (double? mark s) op otherwise) := by
  refine orElse hLevel ?_ hOtherwise
  rw [hMark]
  exact fun rest => double?_eq_some

theorem sum : Spelled .sum s (sumJoint s) := by
  intro op rest h
  obtain ⟨gap, hGap, hText⟩ := exists_gap s
  unfold sumJoint at h
  split at h
  · rename_i hSkip
    cases h
    exact ⟨rfl, gap, hGap, by rw [hText, hSkip]; rfl⟩
  · rename_i hSkip
    cases h
    exact ⟨rfl, gap, hGap, by rw [hText, hSkip]; rfl⟩
  · cases h

/-- The lone slash is refused and not taken for an operator. -/
theorem product : Spelled .product s (productJoint s) := by
  refine single rfl rfl (double rfl rfl ?_)
  split
  · exact refused .loneSlash
  · exact single rfl rfl none

end Joint.Spelled

/-- At every level, what is found is an operator of that level in its spelling. -/
theorem Level.joint_spelled (level : Level) (s : Text) : (level.joint s).Spelled level s := by
  cases level with
  | or | xor | and => exact .single rfl rfl .none
  | shift => exact .double rfl rfl (.double rfl rfl .none)
  | sum => exact .sum
  | product => exact .product
  | power => exact .double rfl rfl .none
  | signed | primary => exact .none

/-- Gaps in front of an operator do not matter. -/
theorem Level.joint_append (level : Level) {gap : Text} (hGap : gap.all isGap = true) (s : Text) :
    level.joint (gap ++ s) = level.joint s := by
  cases level <;> simp only [joint, orJoint, xorJoint, andJoint, shiftJoint, sumJoint,
    productJoint, single?, double?, skipGaps_append hGap]

/-- Where no gap is, only two characters decide. -/
theorem single?_cons {c : Char} (hToken : isGap c = false) (mark : Char) (rest : Text) :
    single? mark (c :: rest) =
      if c = mark ∧ rest.head? ≠ some mark then some rest else none := by
  simp only [single?, skipGaps_cons hToken]

theorem double?_cons {c : Char} (hToken : isGap c = false) (mark : Char) (rest : Text) :
    double? mark (c :: rest) =
      if c = mark ∧ rest.head? = some mark then some rest.tail else none := by
  cases rest <;> simp [double?, skipGaps_cons hToken]

/-- Signs are not looked behind. -/
theorem sumJoint_cons {c : Char} (hToken : isGap c = false) (rest : Text) :
    sumJoint (c :: rest) =
      if c = '+' then .operator .add rest else if c = '-' then .operator .sub rest else .none := by
  simp only [sumJoint, skipGaps_cons hToken]
  split <;> simp_all

/-- An operator with its operand behind it is seen by its own level and by no other. -/
theorem Level.joint_operator (level : Level) (op : BinaryOp) {gap rest : Text}
    (hGap : gap.all isGap = true) (hStart : startsOperand rest = true) :
    level.joint (gap ++ (op.spelling ++ rest)) =
      if op.level = level then .operator op rest else .none := by
  have hMarks : ['|', '^', '&', '<', '>', '*', '/', '%'].all
      (fun mark => !(isGap mark || Level.or.opens mark)) = true := by decide
  have hHead : ∀ mark ∈ ['|', '^', '&', '<', '>', '*', '/', '%'], rest.head? ≠ some mark := by
    intro mark hMark
    have hNot := List.all_eq_true.mp hMarks mark hMark
    exact ne_of_startsOperand hStart (Bool.not_eq_true' _ ▸ hNot)
  simp only [List.forall_mem_cons] at hHead
  rw [joint_append level hGap]
  cases op <;> cases level <;>
    simp [joint, orJoint, xorJoint, andJoint, shiftJoint, productJoint, Joint.orElse,
      single?_cons, double?_cons, sumJoint_cons, isGap, BinaryOp.spelling, BinaryOp.level, hHead]

/-- A closing parenthesis ends the chains of all levels. -/
theorem Level.joint_closing (level : Level) (rest : Text) : level.joint (')' :: rest) = .none := by
  cases level <;>
    simp [joint, orJoint, xorJoint, andJoint, shiftJoint, productJoint, Joint.orElse,
      single?_cons, double?_cons, sumJoint_cons, isGap]

theorem Level.joint_nil (level : Level) : level.joint [] = .none := by
  cases level <;> rfl

/-- Reading at a level goes no further than to the front of a text that continues no word and shows
no operator to the level or to a tighter one. -/
structure Level.Stops (level : Level) (rest : Text) : Prop where
  word : ∀ c ∈ rest.head?, isNameChar c = false
  joint : ∀ other : Level, other.rank ≤ level.rank → other.joint rest = .none

namespace Level

variable {level : Level} {gap rest : Text}

/-- What stops a level stops the tighter ones: none of them has an operator there. -/
theorem Stops.tighter (h : level.Stops rest) : level.tighter.Stops rest where
  word := h.word
  joint other hRank := h.joint other (by rw [rank_tighter] at hRank; omega)

/-- A word does not go on behind a gap. -/
theorem head?_append_of_gap (hGap : gap.all isGap = true)
    (hRest : ∀ c ∈ rest.head?, isNameChar c = false) :
    ∀ c ∈ (gap ++ rest).head?, isNameChar c = false := by
  cases gap with
  | nil => exact hRest
  | cons g gap =>
      intro c hHead
      cases hHead
      exact isNameChar_of_isGap (Bool.and_eq_true _ _ ▸ hGap).1

/-- An operator stops all levels that are tighter than its own. If its mark is the first half of a
tighter operator, the other half would have to start an operand. -/
theorem stops_operator (op : BinaryOp) (hGap : gap.all isGap = true)
    (hStart : startsOperand rest = true) :
    op.level.tighter.Stops (gap ++ (op.spelling ++ rest)) := by
  refine ⟨head?_append_of_gap hGap ?_, ?_⟩
  · cases op <;> (intro c hHead; cases hHead; decide)
  · intro other hRank
    rw [joint_operator other op hGap hStart, if_neg]
    rintro rfl
    rw [rank_tighter] at hRank
    have hPos : 0 < op.level.rank := by cases op <;> decide
    omega

/-- A closing parenthesis stops every level. -/
theorem stops_closing (hGap : gap.all isGap = true) (rest : Text) :
    level.Stops (gap ++ ')' :: rest) := by
  refine ⟨head?_append_of_gap hGap ?_, ?_⟩
  · intro c hHead
    cases hHead
    decide
  · intro other _
    rw [joint_append other hGap, joint_closing]

/-- So does the end of the source. -/
theorem stops_end (hGap : gap.all isGap = true) : level.Stops gap := by
  rw [← List.append_nil gap]
  refine ⟨head?_append_of_gap hGap ?_, ?_⟩
  · intro c hHead
    cases hHead
  · intro other _
    rw [joint_append other hGap, joint_nil]

end Level

end TwoPass.Expression
