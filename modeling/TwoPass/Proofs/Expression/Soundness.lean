import TwoPass.Proofs.Expression.Lookahead

/-! Whatever the reader takes off a text is an expression of the grammar. Each part of the reader
keeps this as long as the readers that it is built from do, so the budget for open operands is all
that the proof needs to recurse on. -/
namespace TwoPass.Expression

/-- An expression was taken off a text, with a derivation for what is missing from its front. -/
def Taken (level : Level) (depth : Nat) (s : Text) (e : Expression) (rest : Text) : Prop :=
  ∃ (d : Derivation level) (body : Text),
    d.tree = e ∧ d.depth ≤ depth ∧ Spells d.tokens body ∧ s = body ++ rest

namespace Taken

variable {level : Level} {depth : Nat} {gap s mid rest : Text} {e left right : Expression}

/-- A gap in front belongs to the first token. -/
theorem widen (hGap : gap.all isGap = true) (h : Taken level depth s e rest) :
    Taken level depth (gap ++ s) e rest := by
  obtain ⟨d, body, hTree, hDepth, hSpells, rfl⟩ := h
  exact ⟨d, gap ++ body, hTree, hDepth, hSpells.widen hGap d.tokens_ne_nil,
    (List.append_assoc ..).symm⟩

/-- What is taken at a level counts at all looser ones. -/
theorem lift (hPrimary : level ≠ .primary) (hSigned : level ≠ .signed)
    (h : Taken level.tighter depth s e rest) : Taken level depth s e rest := by
  obtain ⟨d, body, hTree, hDepth, hSpells, hText⟩ := h
  refine ⟨.lift hPrimary d, body, hTree, ?_, hSpells, hText⟩
  rw [Derivation.depth, if_neg hSigned]
  exact hDepth

/-- Without a sign in front, an operand is still one more that is open. -/
theorem signed (h : Taken .power depth s e rest) : Taken .signed (depth + 1) s e rest := by
  obtain ⟨d, body, hTree, hDepth, hSpells, hText⟩ := h
  have hLevel : Level.signed ≠ .primary := by decide
  exact ⟨.lift hLevel d, body, hTree, Nat.succ_le_succ hDepth, hSpells, hText⟩

/-- A sign in front of what was taken. -/
theorem unary (op : UnaryOp) (h : Taken .signed depth s e rest) :
    Taken .signed (depth + 1) (op.spelling ++ s) (.unary op e) rest := by
  obtain ⟨d, body, rfl, hDepth, hSpells, rfl⟩ := h
  refine ⟨.unary op d, op.spelling ++ body, rfl, Nat.succ_le_succ hDepth, ?_, ?_⟩
  · exact hSpells.token _
  · rw [List.append_assoc]

/-- An operator between what was taken so far and an operand of the next tighter level. -/
theorem binary {op : BinaryOp} (hLevel : level.associates = true) (hOp : op.level = level)
    (hLeft : Taken level depth s left (gap ++ (op.spelling ++ mid))) (hGap : gap.all isGap = true)
    (hRight : Taken level.tighter depth mid right rest) :
    Taken level depth s (.binary op left right) rest := by
  obtain ⟨d, first, rfl, hFirst, hSpellsFirst, rfl⟩ := hLeft
  obtain ⟨d', second, rfl, hSecond, hSpellsSecond, rfl⟩ := hRight
  refine ⟨.binary hLevel op hOp d d', first ++ (gap ++ (op.spelling ++ second)), rfl, ?_, ?_, ?_⟩
  · exact Nat.max_le.mpr ⟨hFirst, hSecond⟩
  · exact hSpellsFirst.append (.cons hGap hSpellsSecond)
  · simp only [List.append_assoc]

/-- The exponent may have signs, the base may not. -/
theorem power
    (hBase : Taken .primary depth s left (gap ++ (BinaryOp.power.spelling ++ mid)))
    (hGap : gap.all isGap = true) (hExponent : Taken .signed depth mid right rest) :
    Taken .power depth s (.binary .power left right) rest := by
  obtain ⟨d, first, rfl, hFirst, hSpellsFirst, rfl⟩ := hBase
  obtain ⟨d', second, rfl, hSecond, hSpellsSecond, rfl⟩ := hExponent
  refine ⟨.power d d', first ++ (gap ++ (BinaryOp.power.spelling ++ second)), rfl, ?_, ?_, ?_⟩
  · exact Nat.max_le.mpr ⟨hFirst, hSecond⟩
  · exact hSpellsFirst.append (.cons hGap hSpellsSecond)
  · simp only [List.append_assoc]

/-- What was taken between parentheses leaves no trace in the tree. -/
theorem parens (h : Taken .or depth s e (gap ++ ')' :: rest)) (hGap : gap.all isGap = true) :
    Taken .primary depth ('(' :: s) e rest := by
  obtain ⟨d, body, rfl, hDepth, hSpells, rfl⟩ := h
  refine ⟨.parens d, '(' :: (body ++ (gap ++ [')'])), rfl, hDepth, ?_, ?_⟩
  · exact (hSpells.append (.cons hGap .nil)).token ['(']
  · simp

/-- The word that the reader takes off is the token of the derivation. -/
theorem literal {token : Text} {v : Int64} (hToken : isNumeral token = true)
    (hValue : literal? token = some v) (hText : s = token ++ rest) :
    Taken .primary depth s (.literal v) rest := by
  have hWord := literal?_eq_some_iff_denotesWord.mp hValue
  exact ⟨.literal token v hToken hWord, token, rfl, Nat.zero_le _, .single token, hText⟩

theorem name {token : Text} (hToken : isName token = true) (hText : s = token ++ rest) :
    Taken .primary depth s (.name token) rest :=
  ⟨.name token hToken, token, rfl, Nat.zero_le _, .single token, hText⟩

end Taken

/-- A reader takes nothing but expressions of a level. -/
def Sound (level : Level) (depth : Nat) (reader : Reader) : Prop :=
  ∀ s e rest, reader s = .ok (e, rest) → Taken level depth s e rest

namespace Sound

variable {level : Level} {depth : Nat} {operand : Reader}

/-- Each round of a chain makes the expression taken so far the left operand of a larger one. -/
theorem chainFrom (hLevel : level.associates = true) (hOperand : Sound level.tighter depth operand)
    {rounds : Nat} {s mid rest : Text} {left e : Expression} (hLeft : Taken level depth s left mid)
    (h : chainFrom level.joint operand rounds left mid = .ok (e, rest)) :
    Taken level depth s e rest := by
  induction rounds generalizing left mid with
  | zero =>
      cases h
      exact hLeft
  | succ rounds ih =>
      rw [Expression.chainFrom] at h
      split at h
      · cases h
        exact hLeft
      · cases h
      · rename_i op beyond hJoint
        obtain ⟨hOp, gap, hGap, rfl⟩ := level.joint_spelled mid op beyond hJoint
        split at h
        · cases h
        · rename_i right behind hRight
          exact ih (hLeft.binary hLevel hOp hGap (hOperand _ _ _ hRight)) h

/-- A level is sound if the next tighter one is. -/
theorem chain (hLevel : level.associates = true) (hOperand : Sound level.tighter depth operand)
    (rounds : Nat) : Sound level depth (chain rounds level.joint operand) := by
  intro s e rest h
  have hPrimary : level ≠ .primary := by rintro rfl; cases hLevel
  have hSigned : level ≠ .signed := by rintro rfl; cases hLevel
  unfold Expression.chain at h
  split at h
  · cases h
  · rename_i first mid hFirst
    exact chainFrom hLevel hOperand ((hOperand _ _ _ hFirst).lift hPrimary hSigned) h

/-- All levels are sound, from the tightest to the loosest. -/
theorem levels (hOperand : Sound .signed depth operand) (rounds : Nat) :
    Sound .or depth (levels rounds operand) := by
  have hProduct := @chain .product _ _ rfl hOperand rounds
  have hSum := @chain .sum _ _ rfl hProduct rounds
  have hShift := @chain .shift _ _ rfl hSum rounds
  have hAnd := @chain .and _ _ rfl hShift rounds
  have hXor := @chain .xor _ _ rfl hAnd rounds
  exact @chain .or _ _ rfl hXor rounds

/-- The three forms of a primary, one after another. -/
theorem primary (hOperand : Sound .signed depth operand) (rounds : Nat) :
    Sound .primary depth (primary rounds operand) := by
  intro s e rest h
  obtain ⟨gap, hGap, hText⟩ := exists_gap s
  unfold Expression.primary at h
  split at h
  · cases h
  · rename_i c tail hSkip
    rw [hText, hSkip]
    refine Taken.widen hGap ?_
    split at h
    · rename_i hParen
      subst hParen
      split at h
      · cases h
      · rename_i inner mid hInner
        obtain ⟨gap', hGap', hMid⟩ := exists_gap mid
        split at h
        · rename_i hClose
          cases h
          rw [hClose] at hMid
          exact Taken.parens (hMid ▸ levels hOperand rounds _ _ _ hInner) hGap'
        · cases h
    · have hWord := (List.takeWhile_append_dropWhile (p := isNameChar) (l := c :: tail)).symm
      simp only at h
      split at h
      · rename_i hDigit
        split at h
        · rename_i v hValue
          cases h
          refine Taken.literal ?_ hValue hWord
          rw [List.takeWhile_cons_of_pos (isNameChar_of_isDigit hDigit), isNumeral, hDigit]
          exact List.all_takeWhile
        · cases h
      · split at h
        · rename_i hStart
          cases h
          refine Taken.name ?_ hWord
          rw [List.takeWhile_cons_of_pos (isNameChar_of_isNameStart hStart), isName, hStart]
          exact List.all_takeWhile
        · cases h

theorem powered (hOperand : Sound .signed depth operand) (rounds : Nat) :
    Sound .power depth (powered rounds operand) := by
  intro s e rest h
  unfold Expression.powered at h
  split at h
  · cases h
  · rename_i base mid hBase
    have hTaken := primary hOperand rounds _ _ _ hBase
    split at h
    · cases h
      exact hTaken.lift (by decide) (by decide)
    · rename_i beyond hPower
      split at h
      · cases h
      · rename_i exponent behind hExponent
        cases h
        obtain ⟨gap, hGap, rfl⟩ := double?_eq_some hPower
        exact hTaken.power hGap (hOperand _ _ _ hExponent)

theorem prefixed (hOperand : Sound .signed depth operand) (op : UnaryOp) {s rest : Text}
    {e : Expression} (h : prefixed op operand s = .ok (e, rest)) :
    Taken .signed (depth + 1) (op.spelling ++ s) e rest := by
  unfold Expression.prefixed at h
  split at h
  · cases h
  · rename_i inner behind hInner
    cases h
    exact (hOperand _ _ _ hInner).unary op

/-- The recursion is on the depth: all that is read inside an operand has one level less. -/
theorem signedOperand (rounds depth : Nat) : Sound .signed depth (signedOperand rounds depth) := by
  induction depth with
  | zero =>
      intro s e rest h
      cases h
  | succ depth ih =>
      intro s e rest h
      obtain ⟨gap, hGap, hText⟩ := exists_gap s
      rw [hText]
      refine Taken.widen hGap ?_
      unfold Expression.signedOperand at h
      split at h
      · rename_i hSkip
        rw [hSkip]
        exact ih.prefixed .negate h
      · rename_i hSkip
        rw [hSkip]
        exact ih.prefixed .keep h
      · rename_i hSkip
        rw [hSkip]
        exact ih.prefixed .complement h
      · exact (ih.powered rounds _ _ _ h).signed

end Sound

/-- Whatever is read is a derivation of the source, and not deeper than the limit. -/
theorem exists_derivation_of_parse {source : Text} {e : Expression} (h : parse source = .ok e) :
    ∃ d : Derivation .or, SpelledBy source d.tokens ∧ d.depth ≤ depthLimit ∧ d.tree = e := by
  obtain ⟨gap, hGap, hText⟩ := exists_gap source
  unfold parse at h
  split at h
  · cases h
  · split at h
    · cases h
    · rename_i tree rest hRead
      have hOperand := Sound.signedOperand (enoughRounds source) depthLimit
      obtain ⟨d, body, hTree, hDepth, hSpells, hBody⟩ := hOperand.levels _ _ _ _ hRead
      split at h
      · rename_i hEnd
        cases h
        obtain ⟨last, hLast, hRest⟩ := exists_gap rest
        rw [hEnd, List.append_nil] at hRest
        refine ⟨d, ⟨gap ++ body, last, ?_, hSpells.widen hGap d.tokens_ne_nil, hLast⟩, hDepth,
          hTree⟩
        rw [List.append_assoc, ← hRest, ← hBody]
        exact hText
      · cases h

end TwoPass.Expression
