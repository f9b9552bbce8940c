import TwoPass.Proofs.Expression.Completeness
import TwoPass.Proofs.Expression.Failure

namespace TwoPass.Expression

section Completion

variable {level : Level} {depth : Nat} {gap s mid rest : Text} {e left right : Expression}

/-- What was taken off a text can be taken off any other text in front of which it stands. -/
theorem Taken.exists_body (h : Taken level depth s e rest) :
    ∃ body, s = body ++ rest ∧ ∀ other, Taken level depth (body ++ other) e other := by
  obtain ⟨d, body, hTree, hDepth, hSpells, rfl⟩ := h
  exact ⟨body, rfl, fun other => ⟨d, body, hTree, hDepth, hSpells, rfl⟩⟩

/-- Reading a level of a text has stopped in front of a rest, and what it has read can be completed
to an expression of the level. -/
def HaltsAt (level : Level) (depth : Nat) (s rest : Text) : Prop :=
  ∃ front more e, s = front ++ rest ∧ Taken level depth (front ++ more) e []

namespace HaltsAt

/-- A gap in front was skipped. -/
theorem widen (hGap : gap.all isGap = true) (h : HaltsAt level depth s rest) :
    HaltsAt level depth (gap ++ s) rest := by
  obtain ⟨front, more, e, rfl, hTaken⟩ := h
  refine ⟨gap ++ front, more, e, (List.append_assoc ..).symm, ?_⟩
  rw [List.append_assoc]
  exact hTaken.widen hGap

/-- What completes an operand completes it for the looser levels too. -/
theorem lift (hPrimary : level ≠ .primary) (hSigned : level ≠ .signed)
    (h : HaltsAt level.tighter depth s rest) : HaltsAt level depth s rest := by
  obtain ⟨front, more, e, hText, hTaken⟩ := h
  exact ⟨front, more, e, hText, hTaken.lift hPrimary hSigned⟩

theorem signed (h : HaltsAt .power depth s rest) : HaltsAt .signed (depth + 1) s rest := by
  obtain ⟨front, more, e, hText, hTaken⟩ := h
  exact ⟨front, more, e, hText, hTaken.signed⟩

/-- The sign stays in front of what was completed. -/
theorem unary (op : UnaryOp) (h : HaltsAt .signed depth s rest) :
    HaltsAt .signed (depth + 1) (op.spelling ++ s) rest := by
  obtain ⟨front, more, e, rfl, hTaken⟩ := h
  refine ⟨op.spelling ++ front, more, .unary op e, (List.append_assoc ..).symm, ?_⟩
  rw [List.append_assoc]
  exact hTaken.unary op

/-- All that was taken before stays the left operand. -/
theorem binary {op : BinaryOp} (hLevel : level.associates = true) (hOp : op.level = level)
    (hLeft : Taken level depth s left (gap ++ (op.spelling ++ mid))) (hGap : gap.all isGap = true)
    (h : HaltsAt level.tighter depth mid rest) : HaltsAt level depth s rest := by
  obtain ⟨front, more, right, rfl, hRight⟩ := h
  obtain ⟨body, rfl, hBody⟩ := hLeft.exists_body
  refine ⟨body ++ (gap ++ (op.spelling ++ front)), more, .binary op left right, ?_, ?_⟩
  · simp only [List.append_assoc]
  · simp only [List.append_assoc]
    exact (hBody _).binary hLevel hOp hGap hRight

/-- A missing exponent is completed, and the base stays. -/
theorem power (hBase : Taken .primary depth s left (gap ++ (BinaryOp.power.spelling ++ mid)))
    (hGap : gap.all isGap = true) (h : HaltsAt .signed depth mid rest) :
    HaltsAt .power depth s rest := by
  obtain ⟨front, more, right, rfl, hRight⟩ := h
  obtain ⟨body, rfl, hBody⟩ := hBase.exists_body
  refine ⟨body ++ (gap ++ (BinaryOp.power.spelling ++ front)), more, .binary .power left right,
    ?_, ?_⟩
  · simp only [List.append_assoc]
  · simp only [List.append_assoc]
    exact (hBody _).power hGap hRight

/-- What is missing inside parentheses is completed with what is missing behind them. -/
theorem inside (h : HaltsAt .or depth s rest) : HaltsAt .primary depth ('(' :: s) rest := by
  obtain ⟨front, more, e, rfl, hTaken⟩ := h
  obtain ⟨body, hText, hBody⟩ := hTaken.exists_body
  rw [List.append_nil] at hText
  refine ⟨'(' :: front, more ++ [')'], e, rfl, ?_⟩
  have hClosed : Taken .or depth (front ++ (more ++ [')'])) e ([] ++ ')' :: []) := by
    rw [← List.append_assoc, hText]
    exact hBody _
  exact hClosed.parens rfl

/-- Where the parenthesis is missing, it completes what stands before. -/
theorem unclosed (hInner : Taken .or depth s e mid) :
    HaltsAt .primary depth ('(' :: s) (skipGaps mid) := by
  obtain ⟨gap, hGap, hMid⟩ := exists_gap mid
  obtain ⟨body, rfl, hBody⟩ := hInner.exists_body
  refine ⟨'(' :: (body ++ gap), [')'], e, ?_, ?_⟩
  · rw [List.cons_append, List.append_assoc, ← hMid]
  · rw [List.cons_append, List.append_assoc]
    exact (hBody _).parens hGap

/-- Where nothing has been read, a digit completes what is missing. -/
theorem start (depth : Nat) (s : Text) : HaltsAt .primary depth s s := by
  have hZero : Taken .primary depth (['0'] ++ []) (.literal 0) [] := .literal rfl rfl rfl
  exact ⟨[], ['0'], .literal 0, rfl, hZero⟩

end HaltsAt

end Completion

/-- A level refuses nothing but a single slash. -/
theorem Level.eq_loneSlash_of_refused {level : Level} {s : Text} {obstacle : Obstacle}
    (h : level.joint s = .refused obstacle) : obstacle = .loneSlash := by
  have hElse : ∀ {found : Option Text} {op : BinaryOp} {otherwise : Joint},
      Joint.orElse found op otherwise = .refused obstacle → otherwise = .refused obstacle := by
    intro found op otherwise hFound
    cases found with
    | none => exact hFound
    | some rest => cases hFound
  cases level with
  | or | xor | and | power => cases hElse h
  | shift => cases hElse (hElse h)
  | sum =>
      change sumJoint s = .refused obstacle at h
      unfold sumJoint at h
      split at h <;> cases h
  | product =>
      have hSlash := hElse (hElse h)
      split at hSlash
      · cases hSlash
        rfl
      · cases hElse hSlash
  | signed | primary => cases h

/-- Where a reader finds something unexpected, it halts. -/
def Halts (level : Level) (depth : Nat) (reader : Reader) : Prop :=
  ∀ s stuck rest, reader s = .error stuck → stuck.obstacle = .unexpected rest →
    HaltsAt level depth s rest

namespace Halts

variable {level : Level} {depth : Nat} {operand : Reader}

/-- A chain halts inside the operand that it has come to, with all it has taken so far in front. -/
theorem chainFrom (hLevel : level.associates = true) (hSound : Sound level.tighter depth operand)
    (hOperand : Halts level.tighter depth operand) {rounds : Nat} {s mid rest : Text}
    {left : Expression} {stuck : Stuck} (hLeft : Taken level depth s left mid)
    (h : chainFrom level.joint operand rounds left mid = .error stuck)
    (hStuck : stuck.obstacle = .unexpected rest) : HaltsAt level depth s rest := by
  induction rounds generalizing left mid with
  | zero => cases h
  | succ rounds ih =>
      rw [Expression.chainFrom] at h
      split at h
      · cases h
      · next hRefused =>
          cases h
          cases (Level.eq_loneSlash_of_refused hRefused).symm.trans hStuck
      · next op beyond hJoint =>
          obtain ⟨hOp, gap, hGap, rfl⟩ := level.joint_spelled mid op beyond hJoint
          split at h
          · next inner hRead =>
              cases h
              exact .binary hLevel hOp hLeft hGap (hOperand _ inner rest hRead hStuck)
          · next right behind hRead =>
              exact ih (hLeft.binary hLevel hOp hGap (hSound _ _ _ hRead)) h

/-- A level halts as the next tighter one does, or inside a later operand. -/
theorem chain (hLevel : level.associates = true) (hSound : Sound level.tighter depth operand)
    (hOperand : Halts level.tighter depth operand) (rounds : Nat) :
    Halts level depth (chain rounds level.joint operand) := by
  intro s stuck rest h hStuck
  have hPrimary : level ≠ .primary := by rintro rfl; cases hLevel
  have hSigned : level ≠ .signed := by rintro rfl; cases hLevel
  unfold Expression.chain at h
  split at h
  · next inner hRead =>
      cases h
      exact (hOperand s _ rest hRead hStuck).lift hPrimary hSigned
  · next first mid hRead =>
      exact chainFrom hLevel hSound hOperand ((hSound _ _ _ hRead).lift hPrimary hSigned) h hStuck

/-- Halting goes up the levels together with soundness, which it needs for the operands before. -/
theorem climb (hSound : Sound .signed depth operand) (hOperand : Halts .signed depth operand)
    (rounds : Nat) : ∀ level : Level, level ≠ .power → level ≠ .primary →
      Sound level depth (level.read rounds operand) ∧
        Halts level depth (level.read rounds operand) := by
  refine Level.climb ⟨hSound, hOperand⟩ fun level hLevel ⟨hInner, hHalts⟩ => ?_
  rw [Level.read_eq_chain hLevel]
  exact ⟨.chain hLevel hInner rounds, chain hLevel hInner hHalts rounds⟩

theorem levels (hSound : Sound .signed depth operand) (hOperand : Halts .signed depth operand)
    (rounds : Nat) : Halts .or depth (levels rounds operand) :=
  (climb hSound hOperand rounds .or (by decide) (by decide)).2

/-- Inside parentheses reading halts as it does outside; elsewhere it has read nothing. -/
theorem primary (hSound : Sound .signed depth operand) (hOperand : Halts .signed depth operand)
    (rounds : Nat) : Halts .primary depth (primary rounds operand) := by
  intro s stuck rest h hStuck
  obtain ⟨gap, hGap, hText⟩ := exists_gap s
  rw [hText]
  refine HaltsAt.widen hGap ?_
  unfold Expression.primary at h
  split at h
  · next hSkip =>
      cases h
      cases hStuck
      rw [hSkip]
      exact .start depth _
  · next c tail hSkip =>
      rw [hSkip]
      split at h
      · next hParen =>
          subst hParen
          split at h
          · next inner hRead =>
              cases h
              exact (levels hSound hOperand rounds _ _ rest hRead hStuck).inside
          · next inner mid hRead =>
              split at h
              · cases h
              · cases h
                cases hStuck
                exact .unclosed (hSound.levels rounds _ _ _ hRead)
      · dsimp only at h
        split at h
        · split at h
          · cases h
          · cases h
            cases hStuck
        · split at h
          · cases h
          · cases h
            cases hStuck
            exact .start depth _

/-- Reading halts in the base, or in the exponent behind it. -/
theorem powered (hSound : Sound .signed depth operand) (hOperand : Halts .signed depth operand)
    (rounds : Nat) : Halts .power depth (powered rounds operand) := by
  intro s stuck rest h hStuck
  unfold Expression.powered at h
  split at h
  · next inner hRead =>
      cases h
      exact (primary hSound hOperand rounds s _ rest hRead hStuck).lift (by decide) (by decide)
  · next base mid hRead =>
      split at h
      · cases h
      · next beyond hPower =>
          split at h
          · next inner hExponent =>
              cases h
              obtain ⟨gap, hGap, rfl⟩ := double?_eq_some hPower
              exact .power (hSound.primary rounds _ _ _ hRead) hGap
                (hOperand _ inner rest hExponent hStuck)
          · cases h

theorem prefixed (hOperand : Halts .signed depth operand) (op : UnaryOp) {s rest : Text}
    {stuck : Stuck} (h : prefixed op operand s = .error stuck)
    (hStuck : stuck.obstacle = .unexpected rest) :
    HaltsAt .signed (depth + 1) (op.spelling ++ s) rest := by
  unfold Expression.prefixed at h
  split at h
  · next inner hRead =>
      cases h
      exact (hOperand s _ rest hRead hStuck).unary op
  · cases h

/-- The recursion is on the depth, as that of the reader. -/
theorem signedOperand (rounds depth : Nat) : Halts .signed depth (signedOperand rounds depth) := by
  induction depth with
  | zero =>
      intro s stuck rest h hStuck
      cases h
      cases hStuck
  | succ depth ih =>
      intro s stuck rest h hStuck
      obtain ⟨gap, hGap, hText⟩ := exists_gap s
      rw [hText]
      refine HaltsAt.widen hGap ?_
      unfold Expression.signedOperand at h
      split at h
      · next hSkip =>
          rw [hSkip]
          exact ih.prefixed .negate h hStuck
      · next hSkip =>
          rw [hSkip]
          exact ih.prefixed .keep h hStuck
      · next hSkip =>
          rw [hSkip]
          exact ih.prefixed .complement h hStuck
      · exact (powered (.signedOperand rounds depth) ih rounds _ _ _ h hStuck).signed

/-- At every level, reading takes expressions of the level and halts as it should. -/
theorem read (rounds depth : Nat) (level : Level) :
    Sound level depth (level.read rounds (Expression.signedOperand rounds depth)) ∧
      Halts level depth (level.read rounds (Expression.signedOperand rounds depth)) := by
  have hSound := Sound.signedOperand rounds depth
  have hHalts := signedOperand rounds depth
  cases level with
  | power => exact ⟨hSound.powered rounds, powered hSound hHalts rounds⟩
  | primary => exact ⟨hSound.primary rounds, primary hSound hHalts rounds⟩
  | _ => exact climb hSound hHalts rounds _ (by decide) (by decide)

end Halts

/-- What was taken whole can be read, with gaps around it. -/
theorem parse_of_taken {s : Text} {gap last : Text} {e : Expression} (hGap : gap.all isGap = true)
    (hLast : last.all isGap = true) (h : Taken .or depthLimit s e []) :
    parse (gap ++ s ++ last) = .ok e := by
  obtain ⟨d, body, rfl, hDepth, hSpells, hText⟩ := h.widen hGap
  rw [List.append_nil] at hText
  exact parse_of_derivation ⟨body, last, by rw [hText], hSpells, hLast⟩ hDepth

/-- Where reading a whole source stops, what it has read can be completed so that it can be read. -/
theorem halts_of_parse {source rest : Text} {stuck : Stuck} (h : parse source = .error stuck)
    (hStuck : stuck.obstacle = .unexpected rest) :
    ∃ front more e, source = front ++ rest ∧ parse (front ++ more) = .ok e := by
  obtain ⟨gap, hGap, hText⟩ := exists_gap source
  obtain ⟨hSound, hHalts⟩ := Halts.read (enoughRounds source) depthLimit .or
  unfold parse at h
  split at h
  · cases h
    cases hStuck
  · split at h
    · next inner hRead =>
        cases h
        obtain ⟨front, more, e, hFront, hTaken⟩ := hHalts _ _ rest hRead hStuck
        refine ⟨gap ++ front, more, e, ?_, ?_⟩
        · rw [List.append_assoc, ← hFront]
          exact hText
        · have hParse := @parse_of_taken _ _ [] _ hGap rfl hTaken
          rwa [List.append_nil, ← List.append_assoc] at hParse
    · next e behind hRead =>
        obtain ⟨last, hLast, hBehind⟩ := exists_gap behind
        obtain ⟨body, hBody, hTaken⟩ := (hSound _ _ _ hRead).exists_body
        split at h
        · cases h
        · cases h
          cases hStuck
          refine ⟨gap ++ body ++ last, [], e, ?_, ?_⟩
          · rw [List.append_assoc, ← hBehind, List.append_assoc, ← hBody]
            exact hText
          · have hWhole := hTaken []
            rw [List.append_nil] at hWhole ⊢
            exact parse_of_taken hGap hLast hWhole

/-- A source that ends too early only lacks what is to follow. -/
theorem exists_parse_of_endOfText {lookup : Text → Option UInt16} {source : Text}
    (h : evaluate lookup source = .error .endOfText) :
    ∃ more e, parse (source ++ more) = .ok e := by
  rcases evaluate_eq_error_cases h with hValue | ⟨stuck, hParse, hError⟩
  · cases hValue
  · have hStuck : stuck.obstacle = .unexpected [] := by
      unfold Obstacle.error at hError
      split at hError
      all_goals try cases hError
      assumption
    obtain ⟨front, more, e, hText, hMore⟩ := halts_of_parse hParse hStuck
    rw [List.append_nil] at hText
    exact ⟨more, e, hText ▸ hMore⟩

end TwoPass.Expression
