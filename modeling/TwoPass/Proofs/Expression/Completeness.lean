import TwoPass.Proofs.Expression.Soundness
import TwoPass.Proofs.Expression.Value

/-! The reader takes every expression of the grammar that fits into its budgets, whatever follows
the expression, as long as that cannot belong to it. With the converse this says which texts have
a value. -/
namespace TwoPass.Expression

/-- Reading at a level over given operands. -/
def Level.read (rounds : Nat) (operand : Reader) : Level → Reader
  | .or => levels rounds operand
  | .xor => chain rounds xorJoint <| chain rounds andJoint <| chain rounds shiftJoint <|
      chain rounds sumJoint <| chain rounds productJoint operand
  | .and => chain rounds andJoint <| chain rounds shiftJoint <| chain rounds sumJoint <|
      chain rounds productJoint operand
  | .shift => chain rounds shiftJoint <| chain rounds sumJoint <| chain rounds productJoint operand
  | .sum => chain rounds sumJoint <| chain rounds productJoint operand
  | .product => chain rounds productJoint operand
  | .signed => operand
  | .power => powered rounds operand
  | .primary => Expression.primary rounds operand

/-- A level that associates is a chain over the next tighter one. -/
theorem Level.read_eq_chain {level : Level} (hLevel : level.associates = true) (rounds : Nat)
    (operand : Reader) : level.read rounds operand =
      chain rounds level.joint (level.tighter.read rounds operand) := by
  cases level with
  | signed | power | primary => cases hLevel
  | _ => rfl

/-- What holds of the operands and is handed on by each level of operators holds of all levels above
the operands. -/
theorem Level.climb {motive : Level → Prop} (hSigned : motive .signed)
    (hChain : ∀ level : Level, level.associates = true → motive level.tighter → motive level) :
    ∀ level : Level, level ≠ .power → level ≠ .primary → motive level := by
  have hProduct := hChain .product rfl hSigned
  have hSum := hChain .sum rfl hProduct
  have hShift := hChain .shift rfl hSum
  have hAnd := hChain .and rfl hShift
  have hXor := hChain .xor rfl hAnd
  have hOr := hChain .or rfl hXor
  intro level hPower hPrimary
  cases level with
  | power => exact absurd rfl hPower
  | primary => exact absurd rfl hPrimary
  | _ => assumption

theorem skipGaps_skipGaps (s : Text) : skipGaps (skipGaps s) = skipGaps s := by
  obtain ⟨gap, hGap, hText⟩ := exists_gap s
  calc skipGaps (skipGaps s) = skipGaps (gap ++ skipGaps s) := (skipGaps_append hGap _).symm
    _ = skipGaps s := by rw [← hText]

/-- Readers skip gaps first, so nothing depends on who does it. -/
theorem signedOperand_skipGaps (rounds depth : Nat) (s : Text) :
    signedOperand rounds depth (skipGaps s) = signedOperand rounds depth s := by
  cases depth with
  | zero => rfl
  | succ depth => simp only [signedOperand, skipGaps_skipGaps]

theorem powered_skipGaps (rounds : Nat) (operand : Reader) (s : Text) :
    powered rounds operand (skipGaps s) = powered rounds operand s := by
  simp only [powered, primary, skipGaps_skipGaps]

/-- This goes up through all levels, since each starts with an operand. -/
theorem levels_skipGaps (rounds depth : Nat) (s : Text) :
    levels rounds (signedOperand rounds depth) (skipGaps s) =
      levels rounds (signedOperand rounds depth) s := by
  simp only [levels, chain, signedOperand_skipGaps]

/-- Skipping stops at what opens an operand. -/
theorem skipGaps_of_opens {level : Level} {gap : Text} {c : Char} (hGap : gap.all isGap = true)
    (hOpens : level.opens c = true) (s : Text) : skipGaps (gap ++ c :: s) = c :: s := by
  rw [skipGaps_append hGap, skipGaps_cons (Level.isGap_of_opens hOpens)]

/-- Behind the gap, a spelled derivation shows its first character. -/
theorem Spells.exists_skipGaps {level : Level} {d : Derivation level} {s : Text}
    (hSpells : Spells d.tokens s) (rest : Text) :
    ∃ c tail, skipGaps (s ++ rest) = c :: tail ∧ level.opens c = true := by
  obtain ⟨gap, c, tail, hGap, hOpens, rfl⟩ := d.exists_first hSpells
  refine ⟨c, tail ++ rest, ?_, hOpens⟩
  rw [List.append_assoc]
  exact skipGaps_of_opens hGap hOpens _

/-- A word ends where the next character is no part of one. -/
theorem span_word {token rest : Text} (hToken : token.all isNameChar = true)
    (hRest : ∀ c ∈ rest.head?, isNameChar c = false) :
    (token ++ rest).takeWhile isNameChar = token ∧
      (token ++ rest).dropWhile isNameChar = rest := by
  have hAll := List.all_eq_true.mp hToken
  rw [List.takeWhile_append_of_pos hAll, List.dropWhile_append_of_pos hAll]
  cases rest with
  | nil => simp
  | cons c rest => simp [hRest c rfl]

/-- Literals and names differ in their first character. -/
theorem isDigit_of_isNameStart {c : Char} (hStart : isNameStart c = true) : c.isDigit = false := by
  simp only [isNameStart, Bool.or_eq_true, beq_iff_eq] at hStart
  rcases hStart with hAlpha | rfl
  · cases hDigit : c.isDigit with
    | false => rfl
    | true =>
        change (decide (c.val ≥ 65 ∧ c.val ≤ 90) ||
          decide (c.val ≥ 97) && decide (c.val ≤ 122)) = true at hAlpha
        change (decide (c.val ≥ 48) && decide (c.val ≤ 57)) = true at hDigit
        simp only [Bool.or_eq_true, Bool.and_eq_true, decide_eq_true_eq, ge_iff_le,
          UInt32.le_iff_toNat_le, UInt32.reduceToNat] at hAlpha hDigit
        omega
  · decide

/-- Without an operator the chain ends, whatever rounds are left. -/
theorem chainFrom_of_none {joint : Text → Joint} {rest : Text} (hJoint : joint rest = .none)
    (operand : Reader) (rounds : Nat) (left : Expression) :
    chainFrom joint operand rounds left rest = .ok (left, rest) := by
  cases rounds with
  | zero => rfl
  | succ rounds => rw [chainFrom, hJoint]

namespace Level

/-- Reading takes an expression off a text in front of every rest at which it stops. -/
def Takes (level : Level) (rounds depth : Nat) (s : Text) (e : Expression) : Prop :=
  ∀ rest, level.Stops rest →
    level.read rounds (signedOperand rounds depth) (s ++ rest) = .ok (e, rest)

/-- Reading gets through a text and has then used up some of its rounds. What follows may start
with another operator of the level, so this carries through a chain of operators. -/
def Reaches (level : Level) (rounds depth used : Nat) (s : Text) (e : Expression) : Prop :=
  ∀ rest, level.tighter.Stops rest →
    level.read rounds (signedOperand rounds depth) (s ++ rest) =
      chainFrom level.joint (level.tighter.read rounds (signedOperand rounds depth))
        (rounds - used) e rest

variable {level : Level} {rounds depth used : Nat} {gap s t : Text} {e left right : Expression}

/-- A chain that comes to its last operand is what the level takes. -/
theorem Reaches.takes (h : level.Reaches rounds depth used s e) : level.Takes rounds depth s e := by
  intro rest hStops
  rw [h rest hStops.tighter, chainFrom_of_none (hStops.joint level (Nat.le_refl _))]

/-- A single operand is a chain in which no round has been used. -/
theorem Takes.reaches (hLevel : level.associates = true)
    (h : level.tighter.Takes rounds depth s e) : level.Reaches rounds depth 0 s e := by
  intro rest hStops
  rw [read_eq_chain hLevel, chain, h rest hStops]
  rfl

/-- One more operator with its operand costs one more round. -/
theorem Reaches.binary {op : BinaryOp} (hOp : op.level = level)
    (hLeft : level.Reaches rounds depth used s left) (hGap : gap.all isGap = true)
    (hStart : ∀ rest, startsOperand (t ++ rest) = true)
    (hRight : level.tighter.Takes rounds depth t right) (hUsed : used < rounds) :
    level.Reaches rounds depth (used + 1) (s ++ (gap ++ (op.spelling ++ t)))
      (.binary op left right) := by
  intro rest hStops
  have hSeen : level.tighter.Stops (gap ++ (op.spelling ++ (t ++ rest))) :=
    hOp ▸ stops_operator op hGap (hStart rest)
  have hRounds : rounds - used = rounds - (used + 1) + 1 := by omega
  simp only [List.append_assoc]
  rw [hLeft _ hSeen, hRounds, chainFrom, joint_operator level op hGap (hStart rest), if_pos hOp]
  simp only [hRight rest hStops]

/-- The power level has one operator, so its joint is the question for it. -/
theorem joint_power_eq_none_iff : Level.power.joint s = .none ↔ double? '*' s = none := by
  cases hFound : double? '*' s <;> simp [joint, Joint.orElse, hFound]

theorem joint_power_eq_operator_iff {beyond : Text} :
    Level.power.joint s = .operator .power beyond ↔ double? '*' s = some beyond := by
  cases hFound : double? '*' s <;> simp [joint, Joint.orElse, hFound]

/-- A sign is in front of a power, so it stops where the power does. -/
theorem Stops.signed {rest : Text} (h : Level.power.Stops rest) : Level.signed.Stops rest where
  word := h.word
  joint other hRank := by
    cases other with
    | signed => rfl
    | power | primary => exact h.joint _ (by decide)
    | _ => exact absurd hRank (by decide)

/-- A base, the operator and an exponent, with a gap before the operator. -/
theorem Takes.power (hBase : Level.primary.Takes rounds depth s left) (hGap : gap.all isGap = true)
    (hStart : ∀ rest, startsOperand (t ++ rest) = true)
    (hExponent : Level.signed.Takes rounds depth t right) :
    Level.power.Takes rounds depth (s ++ (gap ++ (BinaryOp.power.spelling ++ t)))
      (.binary .power left right) := by
  intro rest hStops
  have hPrimary := hBase _ (stops_operator .power hGap (hStart rest))
  have hDouble := joint_power_eq_operator_iff.mp (joint_operator .power .power hGap (hStart rest))
  have hSigned := hExponent rest hStops.signed
  simp only [read] at hPrimary hSigned
  simp only [read, powered, List.append_assoc, hPrimary, hDouble, hSigned]

/-- A primary with no operator behind it is a power. -/
theorem Takes.lift_power (h : Level.primary.Takes rounds depth s e) :
    Level.power.Takes rounds depth s e := by
  intro rest hStops
  have hPrimary := h rest hStops.tighter
  have hDouble := joint_power_eq_none_iff.mp (hStops.joint .power (Nat.le_refl _))
  simp only [read] at hPrimary
  simp only [read, powered, hPrimary, hDouble]

/-- A power that does not start with a sign is an operand. -/
theorem Takes.lift_signed (h : Level.power.Takes rounds depth s e)
    (hFirst : ∀ rest, ∃ c tail, skipGaps (s ++ rest) = c :: tail ∧ Level.power.opens c = true) :
    Level.signed.Takes rounds (depth + 1) s e := by
  intro rest hStops
  obtain ⟨c, tail, hSkip, hOpens⟩ := hFirst rest
  have hPower := h rest hStops.tighter
  rw [read, ← powered_skipGaps, hSkip] at hPower
  simp only [read, signedOperand, hSkip]
  -- No sign opens a power, so the first three alternatives are out.
  split
  · rename_i hSign; cases hSign; cases hOpens
  · rename_i hSign; cases hSign; cases hOpens
  · rename_i hSign; cases hSign; cases hOpens
  · exact hPower

/-- The sign is seen first, and takes one level of depth. -/
theorem Takes.unary (op : UnaryOp) (hGap : gap.all isGap = true)
    (h : Level.signed.Takes rounds depth s e) :
    Level.signed.Takes rounds (depth + 1) (gap ++ (op.spelling ++ s)) (.unary op e) := by
  intro rest hStops
  have hOperand := h rest hStops
  simp only [read] at hOperand
  simp only [read, signedOperand, List.append_assoc, skipGaps_append hGap]
  cases op <;> simp [UnaryOp.spelling, skipGaps_cons, isGap, prefixed, hOperand]

/-- The closing parenthesis stops all levels inside. -/
theorem Takes.parens {last : Text} (hGap : gap.all isGap = true) (hLast : last.all isGap = true)
    (h : Level.or.Takes rounds depth s e) :
    Level.primary.Takes rounds depth (gap ++ '(' :: (s ++ (last ++ [')']))) e := by
  intro rest hStops
  have hInner := h (last ++ ')' :: rest) (stops_closing hLast rest)
  have hClose : skipGaps (last ++ ')' :: rest) = ')' :: rest := by
    rw [skipGaps_append hLast, skipGaps_cons (by decide)]
  simp only [read] at hInner
  simp [read, Expression.primary, skipGaps_append hGap, skipGaps_cons, isGap, hInner, hClose]

/-- What the reader of a primary finds at a word. -/
theorem word_in_front {c : Char} {tail rest : Text} (hGap : gap.all isGap = true)
    (hWord : (c :: tail).all isNameChar = true)
    (hRest : ∀ c ∈ rest.head?, isNameChar c = false) :
    skipGaps (gap ++ (c :: tail ++ rest)) = c :: (tail ++ rest) ∧ c ≠ '(' ∧
      (c :: (tail ++ rest)).takeWhile isNameChar = c :: tail ∧
      (c :: (tail ++ rest)).dropWhile isNameChar = rest := by
  have hName : isNameChar c = true := (Bool.and_eq_true _ _ ▸ hWord).1
  have hOpens : Level.primary.opens c = true := by simp [opens, hName]
  refine ⟨skipGaps_of_opens hGap hOpens _, ?_, span_word hWord hRest⟩
  rintro rfl
  cases hName

/-- The whole word is taken off, and its literal is the one of the derivation. -/
theorem Takes.literal {token : Text} {v : Int64} (hGap : gap.all isGap = true)
    (hToken : isNumeral token = true) (hValue : literal? token = some v) :
    Level.primary.Takes rounds depth (gap ++ token) (.literal v) := by
  intro rest hStops
  obtain ⟨c, tail, rfl, hDigit, hTail⟩ := isNumeral_iff.mp hToken
  have hWord : (c :: tail).all isNameChar = true := by
    rw [List.all_cons, isNameChar_of_isDigit hDigit, hTail]; rfl
  obtain ⟨hSkip, hParen, hTake, hDrop⟩ := word_in_front hGap hWord hStops.word
  simp only [read, Expression.primary, List.append_assoc, hSkip, if_neg hParen, hTake, hDrop,
    if_pos hDigit, hValue]

theorem Takes.name {token : Text} (hGap : gap.all isGap = true) (hToken : isName token = true) :
    Level.primary.Takes rounds depth (gap ++ token) (.name token) := by
  intro rest hStops
  obtain ⟨c, tail, rfl, hStart, hTail⟩ := isName_iff.mp hToken
  have hWord : (c :: tail).all isNameChar = true := by
    rw [List.all_cons, isNameChar_of_isNameStart hStart, hTail]; rfl
  have hDigit : ¬ c.isDigit = true := by rw [isDigit_of_isNameStart hStart]; decide
  obtain ⟨hSkip, hParen, hTake, hDrop⟩ := word_in_front hGap hWord hStops.word
  simp only [read, Expression.primary, List.append_assoc, hSkip, if_neg hParen, hTake, hDrop,
    if_neg hDigit, if_pos hStart]

end Level

/-- The reader takes the text of a derivation, and at a level of binary operators it gets through it
before it looks for the next operator. Left operands are of the level itself, so the induction needs
both. -/
theorem Derivation.takes {level : Level} (d : Derivation level) {rounds depth : Nat} {s : Text}
    (hDepth : d.depth ≤ depth) (hRounds : d.tokens.length ≤ rounds) (hSpells : Spells d.tokens s) :
    level.Takes rounds depth s d.tree ∧ (level.associates = true →
      ∃ used, used < d.tokens.length ∧ level.Reaches rounds depth used s d.tree) := by
  induction d generalizing depth s with
  | literal token v hToken hValue =>
      obtain _ | ⟨hGap, _ | _⟩ := hSpells
      rw [List.append_nil]
      have hRead := literal?_eq_some_iff_denotesWord.mpr hValue
      exact ⟨.literal hGap hToken hRead, fun h => by cases h⟩
  | name token hToken =>
      obtain _ | ⟨hGap, _ | _⟩ := hSpells
      rw [List.append_nil]
      exact ⟨.name hGap hToken, fun h => by cases h⟩
  | parens inner ih =>
      obtain _ | ⟨hGap, hOthers⟩ := hSpells
      obtain ⟨body, close, rfl, hInner, hClose⟩ := Spells.split hOthers
      obtain _ | ⟨hLast, _ | _⟩ := hClose
      simp only [tokens, List.length_append, List.length_cons] at hRounds
      exact ⟨.parens hGap hLast (ih hDepth (by omega) hInner).1, fun h => by cases h⟩
  | power base exponent ihBase ihExponent =>
      obtain ⟨first, others, rfl, hFirst, hOthers⟩ := Spells.split hSpells
      obtain _ | ⟨hGap, hSecond⟩ := hOthers
      simp only [tokens, List.length_append, List.length_cons] at hRounds
      rw [Derivation.depth, Nat.max_le] at hDepth
      exact ⟨.power (ihBase hDepth.1 (by omega) hFirst).1 hGap hSecond.startsOperand
        (ihExponent hDepth.2 (by omega) hSecond).1, fun h => by cases h⟩
  | unary op operand ih =>
      obtain _ | ⟨hGap, hOthers⟩ := hSpells
      simp only [tokens, List.length_cons] at hRounds
      cases depth with
      | zero => cases hDepth
      | succ depth =>
          exact ⟨.unary op hGap (ih (Nat.le_of_succ_le_succ hDepth) (by omega) hOthers).1,
            fun h => by cases h⟩
  | @binary level hLevel op hOp left right ihLeft ihRight =>
      obtain ⟨first, others, rfl, hFirst, hOthers⟩ := Spells.split hSpells
      obtain _ | ⟨hGap, hSecond⟩ := hOthers
      simp only [tokens, List.length_append, List.length_cons] at hRounds
      rw [Derivation.depth, Nat.max_le] at hDepth
      obtain ⟨used, hUsed, hLeft⟩ := (ihLeft hDepth.1 (by omega) hFirst).2 hLevel
      have hRight := (ihRight hDepth.2 (by omega) hSecond).1
      have hReaches := hLeft.binary hOp hGap hSecond.startsOperand hRight (by omega)
      refine ⟨hReaches.takes, fun _ => ⟨used + 1, ?_, hReaches⟩⟩
      simp only [tokens, List.length_append, List.length_cons]
      omega
  | @lift level hLevel inner ih =>
      cases hAssociates : level.associates with
      | true =>
          have hSigned : level ≠ .signed := by rintro rfl; cases hAssociates
          rw [Derivation.depth, if_neg hSigned] at hDepth
          have hReaches := (ih hDepth hRounds hSpells).1.reaches hAssociates
          have hTokens := List.length_pos_iff.mpr inner.tokens_ne_nil
          exact ⟨hReaches.takes, fun _ => ⟨0, hTokens, hReaches⟩⟩
      | false =>
          refine ⟨?_, fun h => by cases h⟩
          cases level with
          | signed =>
              cases depth with
              | zero => cases hDepth
              | succ depth =>
                  have hInner := (ih (Nat.le_of_succ_le_succ hDepth) hRounds hSpells).1
                  exact hInner.lift_signed (Spells.exists_skipGaps hSpells)
          | power => exact (ih hDepth hRounds hSpells).1.lift_power
          | primary => exact absurd rfl hLevel
          | _ => cases hAssociates

/-- Every derivation that is not too deep is read, and as the tree it stands for. -/
theorem parse_of_derivation {source : Text} {d : Derivation .or}
    (hSource : SpelledBy source d.tokens) (hDepth : d.depth ≤ depthLimit) :
    parse source = .ok d.tree := by
  have hRounds := hSource.length_le d.ne_nil_of_mem_tokens
  obtain ⟨body, gap, rfl, hSpells, hGap⟩ := hSource
  have hRead := (d.takes hDepth hRounds hSpells).1 gap (Level.stops_end hGap)
  obtain ⟨c, tail, hSkip, -⟩ := hSpells.exists_skipGaps gap
  rw [Level.read, ← levels_skipGaps, hSkip] at hRead
  simp only [parse, hSkip, hRead, skipGaps_of_all hGap]

/-- Reading and deriving are the same. -/
theorem parse_eq_ok_iff {source : Text} {e : Expression} : parse source = .ok e ↔
    ∃ d : Derivation .or, SpelledBy source d.tokens ∧ d.depth ≤ depthLimit ∧ d.tree = e := by
  constructor
  · exact exists_derivation_of_parse
  · rintro ⟨d, hSource, hDepth, rfl⟩
    exact parse_of_derivation hSource hDepth

end TwoPass.Expression
