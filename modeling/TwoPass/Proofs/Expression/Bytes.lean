import TwoPass.Proofs.Expression.Completion
import TwoPass.Proofs.Expression.Cursor

/-! Evaluation over bytes does what evaluation over characters does. A scan keeps its cursor
between characters, and up to gaps in front of the same rest as the reader that it follows, so
both meet the same operators, words and obstacles. The scan computes while it reads and the reader
only afterwards; what a reader has completed when it stops is what the scan has computed by then. -/
namespace TwoPass.Expression.Bytes

variable {source : Text}

section Joints

variable {found : Text → Option Text} {eaten : Scan Bool} {joint : Text → Joint}
  {scan : Scan (Option BinaryOp)}

/-- What stands at a joint decides where the cursor goes. -/
inductive Joins (source rest : Text) : Joint → Except Error (Option BinaryOp) × Cursor → Prop
  | operator {op : BinaryOp} {beyond : Text} {c : Cursor} (h : Stands source beyond c) :
      Joins source rest (.operator op beyond) (.ok (some op), c)
  | refused {here : Text} {c : Cursor} (h : Stands source here c) :
      Joins source rest (.refused .loneSlash) (.error .loneSlash, c)
  | none {c : Cursor} (h : Near source rest c) : Joins source rest .none (.ok none, c)

/-- A mark is taken off where the characters have it. -/
def Detects (source : Text) (found : Text → Option Text) (eaten : Scan Bool) : Prop :=
  ∀ rest c, Near source rest c → Takes source rest (found rest) (eaten.at c)

/-- A scan goes one way if a mark can be taken off and another way if not. -/
theorem Detects.branch {α : Type} {yes no : Scan α} {outcome : Except Error α × Cursor → Prop}
    (hEaten : Detects source found eaten) {rest : Text} {c : Cursor} (h : Near source rest c)
    (hYes : ∀ beyond d, found rest = some beyond → Stands source beyond d → outcome (yes.at d))
    (hNo : ∀ d, found rest = none → Stands source (Expression.skipGaps rest) d →
      outcome (no.at d)) :
    outcome (Scan.at (do if ← eaten then yes else no) c) := by
  have hTakes := hEaten rest c h
  rw [at_bind]
  generalize hFound : found rest = result at hTakes
  generalize eaten.at c = reached at hTakes ⊢
  cases hTakes with
  | taken hBeyond => exact hYes _ _ hFound hBeyond
  | missing hHere => exact hNo _ hFound hHere

/-- An operator is taken off where the characters have it. -/
def Finds (source : Text) (joint : Text → Joint) (scan : Scan (Option BinaryOp)) : Prop :=
  ∀ rest c, Near source rest c → Joins source rest (joint rest) (scan.at c)

namespace Finds

theorem none : Finds source (fun _ => .none) (pure Option.none) := fun _ _ h => .none h

/-- An operator goes before the alternatives behind it. -/
theorem orElse (hEaten : Detects source found eaten) (op : BinaryOp)
    (hElse : Finds source joint scan) :
    Finds source (fun s => .orElse (found s) op (joint s)) (orElse eaten op scan) := by
  intro rest c h
  refine hEaten.branch h ?_ ?_
  · intro beyond d hFound hBeyond
    simp only [hFound]
    exact .operator hBeyond
  · intro d hFound hHere
    simp only [hFound]
    exact hElse rest d hHere.near_of_skipGaps

/-- A mark that the language does not have ends the scan. -/
theorem refuse (hEaten : Detects source found eaten) (hElse : Finds source joint scan) :
    Finds source
      (fun s => match found s with
        | some _ => .refused .loneSlash
        | Option.none => joint s)
      (do if ← eaten then throw .loneSlash else scan) := by
  intro rest c h
  refine hEaten.branch h ?_ ?_
  · intro beyond d hFound hBeyond
    simp only [hFound]
    exact .refused hBeyond
  · intro d hFound hHere
    simp only [hFound]
    exact hElse rest d hHere.near_of_skipGaps

end Finds

/-- The three ways to take a mark off, each with what it does on characters. -/
theorem detects_single {mark : Char} (hMark : mark.val ≤ 127) :
    Detects source (single? mark) (eatSingle (Text.utf8 source) mark) :=
  fun _ _ h => h.at_eatSingle hMark

theorem detects_double {mark : Char} (hMark : mark.val ≤ 127) :
    Detects source (double? mark) (eatDouble (Text.utf8 source) mark) :=
  fun _ _ h => h.at_eatDouble hMark

theorem detects_next {mark : Char} (hMark : mark.val ≤ 127) :
    Detects source (next? mark) (eat (Text.utf8 source) mark) :=
  fun _ _ h => h.at_eat hMark

/-- The joints of the six levels, from the loosest to the tightest. -/
theorem finds_or : Finds source Expression.orJoint (orJoint (Text.utf8 source)) :=
  .orElse (detects_single (by decide)) .or .none

theorem finds_xor : Finds source Expression.xorJoint (xorJoint (Text.utf8 source)) :=
  .orElse (detects_single (by decide)) .xor .none

theorem finds_and : Finds source Expression.andJoint (andJoint (Text.utf8 source)) :=
  .orElse (detects_single (by decide)) .and .none

theorem finds_shift : Finds source Expression.shiftJoint (shiftJoint (Text.utf8 source)) :=
  .orElse (detects_double (by decide)) .shiftLeft <|
    .orElse (detects_double (by decide)) .shiftRight .none

/-- Signs between operands, as marks. -/
theorem sumJoint_eq (s : Text) : Expression.sumJoint s =
    .orElse (next? '+' s) .add (.orElse (next? '-' s) .sub .none) := by
  unfold Expression.sumJoint next?
  rcases Expression.skipGaps s with _ | ⟨d, rest⟩
  · rfl
  · by_cases hPlus : d = '+'
    · subst hPlus
      rfl
    · by_cases hMinus : d = '-'
      · subst hMinus
        rfl
      · simp [hPlus, hMinus, Joint.orElse]

theorem finds_sum : Finds source Expression.sumJoint (sumJoint (Text.utf8 source)) := by
  rw [funext sumJoint_eq]
  exact .orElse (detects_next (by decide)) .add <| .orElse (detects_next (by decide)) .sub .none

theorem finds_product : Finds source Expression.productJoint (productJoint (Text.utf8 source)) :=
  .orElse (detects_single (by decide)) .mul <| .orElse (detects_double (by decide)) .floorDiv <|
    .refuse (detects_single (by decide)) <| .orElse (detects_single (by decide)) .floorMod .none

end Joints

/-- A failure that speaks of the text tells where the cursor stands. -/
def Blames (source : Text) (c : Cursor) : Error → Prop
  | .endOfText => Stands source [] c
  | .unexpected found offset =>
    offset = c.pos ∧ isGap found = false ∧ ∃ rest, Stands source (found :: rest) c
  | _ => ∃ rest, Stands source rest c

/-- Evaluation over bytes gives what is expected, and its cursor stands where that says. -/
inductive Agrees (source : Text) :
    Except Error (Int64 × Text) → Except Error Int64 × Cursor → Prop
  | ok {v : Int64} {rest : Text} {c : Cursor} (h : Near source rest c) :
      Agrees source (.ok (v, rest)) (.ok v, c)
  | error {e : Error} {c : Cursor} (h : Blames source c e) : Agrees source (.error e) (.error e, c)

variable {lookup : Text → Option UInt16}

/-- What reading a text comes to when all that has been read is evaluated. -/
def meaning (lookup : Text → Option UInt16) (source : Text) :
    Except Stuck (Expression × Text) → Except Error (Int64 × Text)
  | .ok (e, rest) => do .ok (← e.value lookup, rest)
  | .error stuck => do
    let _ ← stuck.completed.mapM (value lookup)
    .error (stuck.obstacle.error source)

section Meaning

variable {e left right : Expression} {v : Int64} {error : Error} {rest : Text} {stuck : Stuck}

theorem meaning_ok (h : e.value lookup = .ok v) :
    meaning lookup source (.ok (e, rest)) = .ok (v, rest) := by
  rw [meaning, h]
  rfl

theorem meaning_ok_of_error (h : e.value lookup = .error error) :
    meaning lookup source (.ok (e, rest)) = .error error := by
  rw [meaning, h]
  rfl

/-- A reader that has stopped never comes to a value. -/
theorem exists_meaning_error (lookup : Text → Option UInt16) (source : Text) (stuck : Stuck) :
    ∃ error, meaning lookup source (.error stuck) = .error error := by
  rw [meaning]
  cases stuck.completed.mapM (value lookup) with
  | error error => exact ⟨error, rfl⟩
  | ok values => exact ⟨_, rfl⟩

/-- Left operands that have a value do not show in what comes after them. -/
theorem meaning_after (h : left.value lookup = .ok v) :
    meaning lookup source (.error (stuck.after left)) = meaning lookup source (.error stuck) := by
  simp only [meaning, Stuck.after, List.mapM_cons, h]
  cases stuck.completed.mapM (value lookup) <;> rfl

/-- A left operand that fails goes before what reading meets later. -/
theorem meaning_after_of_error (h : left.value lookup = .error error) :
    meaning lookup source (.error (stuck.after left)) = .error error := by
  simp only [meaning, Stuck.after, List.mapM_cons, h]
  rfl

/-- Behind operands that have a value, the obstacle shows. -/
theorem meaning_obstacle (h : left.value lookup = .ok v) (obstacle : Obstacle) :
    meaning lookup source (.error ⟨[left], obstacle⟩) = .error (obstacle.error source) :=
  @meaning_after source lookup left v ⟨[], obstacle⟩ h

theorem meaning_obstacle_of_error (h : left.value lookup = .error error) (obstacle : Obstacle) :
    meaning lookup source (.error ⟨[left], obstacle⟩) = .error error :=
  @meaning_after_of_error source lookup left error ⟨[], obstacle⟩ h

/-- The left operand is evaluated first. -/
theorem value_binary_of_error (op : BinaryOp) (h : left.value lookup = .error error) :
    (Expression.binary op left right).value lookup = .error error := by
  rw [value, h]
  rfl

/-- If the left operand fails, so does the whole chain. -/
theorem meaning_chainFrom_of_error {joint : Text → Joint} {operand : Reader} {rounds : Nat}
    (h : left.value lookup = .error error) :
    meaning lookup source (Expression.chainFrom joint operand rounds left rest) = .error error := by
  induction rounds generalizing left rest with
  | zero => exact meaning_ok_of_error h
  | succ rounds ih =>
      rw [Expression.chainFrom]
      split
      · exact meaning_ok_of_error h
      · next obstacle _ => exact meaning_obstacle_of_error h obstacle
      · next op beyond _ =>
          split
          · exact meaning_after_of_error h
          · exact ih (value_binary_of_error op h)

end Meaning

theorem Near.exists_stands {rest : Text} {c : Cursor} (h : Near source rest c) :
    ∃ here, Stands source here c := ⟨_, h.choose_spec.1⟩

/-- Failures of values may come up wherever the cursor stands. -/
theorem blames_of_isOfValue {rest : Text} {c : Cursor} {error : Error}
    (hError : error.isOfValue = true) (h : Near source rest c) : Blames source c error := by
  cases error
  case endOfText | unexpected => cases hError
  all_goals exact h.exists_stands

/-- The failure at a cursor is the one that characters give for what is left over. -/
theorem Stands.agrees_unexpected {rest : Text} {c : Cursor} (h : Stands source rest c)
    (hToken : ∀ d ∈ rest.head?, isGap d = false) :
    Agrees source (.error ((Obstacle.unexpected rest).error source))
      (.error (unexpected (Text.utf8 source) c), c) := by
  obtain ⟨front, hSource, hPos⟩ := h.here
  cases rest with
  | nil =>
      rw [unexpected, h.drop_eq]
      exact .error h
  | cons d rest =>
      have hDecode : (Text.utf8 (d :: rest)).toByteArray.utf8DecodeChar? 0 = some d :=
        List.utf8DecodeChar?_utf8Encode_cons
      have hOffset : Text.utf8Size source - Text.utf8Size (d :: rest) = c.pos := by
        rw [hSource, Text.utf8Size_append, Nat.add_sub_cancel, hPos]
      obtain ⟨byte, others, hBytes, -⟩ := Text.exists_utf8_cons d rest
      rw [Obstacle.error, hOffset, unexpected, h.drop_eq]
      rw [hBytes] at hDecode ⊢
      simp only [hDecode, Option.getD_some]
      exact .error ⟨rfl, hToken d rfl, rest, h⟩

/-- The signs in front of an operand, as marks that may be taken off one after another. -/
theorem signedOperand_succ (rounds depth : Nat) (s : Text) :
    Expression.signedOperand rounds (depth + 1) s =
      match next? '-' s with
      | some rest => Expression.prefixed .negate (Expression.signedOperand rounds depth) rest
      | none =>
        match next? '+' s with
        | some rest => Expression.prefixed .keep (Expression.signedOperand rounds depth) rest
        | none =>
          match next? '~' s with
          | some rest =>
            Expression.prefixed .complement (Expression.signedOperand rounds depth) rest
          | none => Expression.powered rounds (Expression.signedOperand rounds depth)
              (Expression.skipGaps s) := by
  rw [Expression.signedOperand]
  simp only [next?]
  split
  · next hSkip => simp [hSkip]
  · next hSkip => simp [hSkip]
  · next hSkip => simp [hSkip]
  · next hMinus hPlus hTilde =>
      rcases hSkip : Expression.skipGaps s with _ | ⟨d, rest⟩
      · rfl
      · have h1 : d ≠ '-' := by rintro rfl; exact hMinus rest hSkip
        have h2 : d ≠ '+' := by rintro rfl; exact hPlus rest hSkip
        have h3 : d ≠ '~' := by rintro rfl; exact hTilde rest hSkip
        simp [h1, h2, h3]

/-- A value that is computed where reading has come to is the one of the tree read so far. -/
theorem agrees_value (lookup : Text → Option UInt16) (e : Expression) {rest : Text} {c : Cursor}
    (h : Near source rest c) :
    Agrees source (meaning lookup source (.ok (e, rest))) (e.value lookup, c) := by
  cases hValue : e.value lookup with
  | error error =>
      rw [meaning_ok_of_error hValue]
      exact .error (blames_of_isOfValue (failsByValue_value lookup e error hValue) h)
  | ok v =>
      rw [meaning_ok hValue]
      exact .ok h

/-- A scan does on bytes what a reader does on characters. -/
def Simulates (lookup : Text → Option UInt16) (source : Text) (reader : Reader)
    (scan : Scan Int64) : Prop :=
  ∀ rest c, Near source rest c → Agrees source (meaning lookup source (reader rest)) (scan.at c)

namespace Simulates

variable {reader operand : Reader} {scan operandScan : Scan Int64} {joint : Text → Joint}
  {jointScan : Scan (Option BinaryOp)} {rounds : Nat}

/-- What follows an operand is reached with its value. If the operand fails or cannot be read, so is
the whole. -/
theorem bind (hReader : Simulates lookup source reader scan) {rest : Text} {c : Cursor}
    (h : Near source rest c) {next : Int64 → Scan Int64} {result : Except Stuck (Expression × Text)}
    (hStuck : ∀ stuck, reader rest = .error stuck →
      meaning lookup source result = meaning lookup source (.error stuck))
    (hFails : ∀ e beyond error, reader rest = .ok (e, beyond) → e.value lookup = .error error →
      meaning lookup source result = .error error)
    (hNext : ∀ e beyond v d, reader rest = .ok (e, beyond) → e.value lookup = .ok v →
      Near source beyond d → Agrees source (meaning lookup source result) ((next v).at d)) :
    Agrees source (meaning lookup source result) ((scan >>= next).at c) := by
  have hAgrees := hReader rest c h
  rw [at_bind]
  generalize scan.at c = reached at hAgrees ⊢
  cases hRead : reader rest with
  | error stuck =>
      obtain ⟨error, hError⟩ := exists_meaning_error lookup source stuck
      rw [hRead, hError] at hAgrees
      rw [hStuck stuck hRead, hError]
      cases hAgrees with
      | error hBlames => exact .error hBlames
  | ok taken =>
      obtain ⟨e, beyond⟩ := taken
      rw [hRead] at hAgrees
      cases hValue : e.value lookup with
      | error error =>
          rw [meaning_ok_of_error hValue] at hAgrees
          rw [hFails e beyond error hRead hValue]
          cases hAgrees with
          | error hBlames => exact .error hBlames
      | ok v =>
          rw [meaning_ok hValue] at hAgrees
          cases hAgrees with
          | ok hBeyond => exact hNext e beyond v _ hRead hValue hBeyond

/-- The rounds go on together: both take the operator and its right operand, or both stop. -/
theorem chainFrom (hJoint : Finds source joint jointScan)
    (hOperand : Simulates lookup source operand operandScan) (rounds : Nat) {left : Expression}
    {v : Int64} {rest : Text} {c : Cursor} (hLeft : left.value lookup = .ok v)
    (h : Near source rest c) :
    Agrees source (meaning lookup source (Expression.chainFrom joint operand rounds left rest))
      ((chainFrom jointScan operandScan rounds v).at c) := by
  induction rounds generalizing left v rest c with
  | zero =>
      rw [Expression.chainFrom, meaning_ok hLeft]
      exact .ok h
  | succ rounds ih =>
      have hJoins := hJoint rest c h
      rw [Expression.chainFrom, Bytes.chainFrom, at_bind]
      generalize joint rest = found at hJoins ⊢
      generalize jointScan.at c = reached at hJoins ⊢
      cases hJoins with
      | none hNear =>
          dsimp only
          rw [meaning_ok hLeft]
          exact .ok hNear
      | refused hHere =>
          dsimp only
          rw [meaning_obstacle hLeft]
          exact .error ⟨_, hHere⟩
      | @operator op beyond d hBeyond =>
          dsimp only
          refine hOperand.bind hBeyond.near ?_ ?_ ?_
          · intro stuck hRead
            simp only [hRead]
            exact meaning_after hLeft
          · intro right behind error hRead hRight
            simp only [hRead]
            exact meaning_chainFrom_of_error (by rw [value, hLeft, hRight]; rfl)
          · intro right behind w f hRead hRight hBehind
            simp only [hRead]
            have hValue : (Expression.binary op left right).value lookup = op.apply v w := by
              rw [value, hLeft, hRight]
              rfl
            rw [at_bind, at_lift]
            cases hApply : op.apply v w with
            | error error =>
                rw [meaning_chainFrom_of_error (hValue.trans hApply)]
                exact .error (blames_of_isOfValue (op.failsByValue_apply v w error hApply) hBehind)
            | ok u => exact ih (hValue.trans hApply) hBehind

/-- A level follows the next tighter one. -/
theorem chain (hJoint : Finds source joint jointScan)
    (hOperand : Simulates lookup source operand operandScan) (rounds : Nat) :
    Simulates lookup source (Expression.chain rounds joint operand)
      (chain rounds jointScan operandScan) := by
  intro rest c h
  refine hOperand.bind h ?_ ?_ ?_
  · intro stuck hRead
    simp only [Expression.chain, hRead]
  · intro first beyond error hRead hFirst
    simp only [Expression.chain, hRead]
    exact meaning_chainFrom_of_error hFirst
  · intro first beyond v d hRead hFirst hBeyond
    simp only [Expression.chain, hRead]
    exact chainFrom hJoint hOperand rounds hFirst hBeyond

/-- All six levels, over operands that follow each other. -/
theorem levels (hOperand : Simulates lookup source operand operandScan) (rounds : Nat) :
    Simulates lookup source (Expression.levels rounds operand)
      (levels (Text.utf8 source) rounds operandScan) :=
  .chain finds_or (.chain finds_xor (.chain finds_and (.chain finds_shift (.chain finds_sum
    (.chain finds_product hOperand rounds) rounds) rounds) rounds) rounds) rounds

/-- A sign is applied to what the operand comes to. -/
theorem prefixed (op : UnaryOp) (hOperand : Simulates lookup source operand operandScan) :
    Simulates lookup source (Expression.prefixed op operand) (prefixed op operandScan) := by
  intro rest c h
  refine hOperand.bind h ?_ ?_ ?_
  · intro stuck hRead
    simp only [Expression.prefixed, hRead]
  · intro e beyond error hRead hFails
    simp only [Expression.prefixed, hRead]
    exact meaning_ok_of_error (by rw [Expression.value, hFails]; rfl)
  · intro e beyond v d hRead hValue hBeyond
    simp only [Expression.prefixed, hRead]
    have hUnary : (Expression.unary op e).value lookup = op.apply v := by
      rw [Expression.value, hValue]
      rfl
    rw [at_lift, ← hUnary]
    exact agrees_value lookup _ hBeyond

/-- The exponent is evaluated after the base, and with signs of its own. -/
theorem powered (hPrimary : Simulates lookup source (Expression.primary rounds operand)
      (primary (Text.utf8 source) lookup rounds operandScan))
    (hOperand : Simulates lookup source operand operandScan) :
    Simulates lookup source (Expression.powered rounds operand)
      (powered (Text.utf8 source) lookup rounds operandScan) := by
  intro rest c h
  refine hPrimary.bind h ?_ ?_ ?_
  · intro stuck hRead
    simp only [Expression.powered, hRead]
  · intro base beyond error hRead hFails
    simp only [Expression.powered, hRead]
    split
    · exact meaning_ok_of_error hFails
    · split
      · exact meaning_after_of_error hFails
      · exact meaning_ok_of_error (value_binary_of_error .power hFails)
  · intro base beyond v d hRead hBase hBeyond
    simp only [Expression.powered, hRead]
    refine (detects_double (by decide)).branch hBeyond ?_ ?_
    · intro behind f hFound hBehind
      simp only [hFound]
      refine hOperand.bind hBehind.near ?_ ?_ ?_
      · intro stuck hExponent
        simp only [hExponent]
        exact meaning_after hBase
      · intro exponent last error hExponent hFails
        simp only [hExponent]
        exact meaning_ok_of_error (by rw [Expression.value, hBase, hFails]; rfl)
      · intro exponent last w g hExponent hValue hLast
        simp only [hExponent]
        have hPower : (Expression.binary .power base exponent).value lookup =
            BinaryOp.power.apply v w := by
          rw [Expression.value, hBase, hValue]
          rfl
        rw [at_lift, ← hPower]
        exact agrees_value lookup _ hLast
    · intro f hFound hHere
      simp only [hFound]
      rw [meaning_ok hBase]
      exact .ok hHere.near_of_skipGaps

/-- Where there is no parenthesis, the first byte tells literals, names and obstacles apart, since
none of these classes goes beyond ASCII. -/
theorem primary (hOperand : Simulates lookup source operand operandScan) (rounds : Nat) :
    Simulates lookup source (Expression.primary rounds operand)
      (primary (Text.utf8 source) lookup rounds operandScan) := by
  intro rest c h
  refine (detects_next (by decide)).branch h ?_ ?_
  · intro inside d hFound hInside
    have hRest := skipGaps_of_next? hFound
    refine (levels hOperand rounds).bind hInside.near ?_ ?_ ?_
    · intro stuck hRead
      simp only [Expression.primary, hRest, if_true, hRead]
    · intro inner beyond error hRead hFails
      simp only [Expression.primary, hRest, if_true, hRead]
      split
      · exact meaning_ok_of_error hFails
      · exact meaning_obstacle_of_error hFails _
    · intro inner beyond v f hRead hInner hBeyond
      simp only [Expression.primary, hRest, if_true, hRead]
      refine (detects_next (by decide)).branch hBeyond ?_ ?_
      · intro last g hClosed hLast
        simp only [skipGaps_of_next? hClosed]
        rw [meaning_ok hInner]
        exact .ok hLast.near
      · intro g hOpen hHere
        have hUnexpected := hHere.agrees_unexpected (isGap_of_mem_head?_skipGaps beyond)
        split
        · next last hClosed => exact absurd hClosed (skipGaps_ne_of_next? hOpen last)
        · rw [meaning_obstacle hInner]
          exact hUnexpected
  · intro d hFound hHere
    have hUnexpected := hHere.agrees_unexpected (isGap_of_mem_head?_skipGaps rest)
    rw [at_bind, at_get]
    dsimp only
    rw [hHere.byteAt_eq]
    cases hRest : Expression.skipGaps rest with
    | nil =>
        rw [hRest] at hHere
        simp only [Expression.primary, hRest]
        exact .error hHere
    | cons first beyond =>
        rw [hRest] at hHere hUnexpected
        have hParen : first ≠ '(' := by
          rintro rfl
          exact skipGaps_ne_of_next? hFound beyond hRest
        obtain ⟨f, hWord, hBeyond⟩ := hHere.at_takeWord
        simp only [Expression.primary, hRest, hParen, if_false, List.head?_cons, Option.map_some,
          onlyAscii_isDigit.lead, onlyAscii_isNameStart.lead]
        split
        · rw [at_bind, hWord]
          dsimp only
          cases literal? ((first :: beyond).takeWhile isNameChar) with
          | none => exact .error ⟨_, hBeyond⟩
          | some v => exact .ok hBeyond.near
        · split
          · have hName := agrees_value lookup (.name ((first :: beyond).takeWhile isNameChar))
              hBeyond.near
            rw [Expression.value] at hName
            rw [at_bind, hWord]
            dsimp only
            cases hLookup : lookup ((first :: beyond).takeWhile isNameChar) with
            | none =>
                rw [hLookup] at hName
                exact hName
            | some w =>
                rw [hLookup] at hName
                exact hName
          · exact hUnexpected

/-- A sign goes before whatever else an operand can be. -/
theorem sign {mark : Char} (hMark : mark.val ≤ 127) (op : UnaryOp)
    (hOperand : Simulates lookup source operand operandScan)
    (hElse : Simulates lookup source reader scan) :
    Simulates lookup source
      (fun s => match next? mark s with
        | some rest => Expression.prefixed op operand rest
        | none => reader s)
      (do if ← eat (Text.utf8 source) mark then Bytes.prefixed op operandScan else scan) := by
  intro rest c h
  refine (detects_next hMark).branch h ?_ ?_
  · intro beyond d hFound hBeyond
    simp only [hFound]
    exact prefixed op hOperand beyond d hBeyond.near
  · intro d hFound hHere
    simp only [hFound]
    exact hElse rest d hHere.near_of_skipGaps

/-- The recursion is on the depth. -/
theorem signedOperand (rounds depth : Nat) :
    Simulates lookup source (Expression.signedOperand rounds depth)
      (signedOperand (Text.utf8 source) lookup rounds depth) := by
  induction depth with
  | zero => exact fun rest c h => .error h.exists_stands
  | succ depth ih =>
      have hPowered := powered (primary ih rounds) ih
      rw [funext (signedOperand_succ rounds depth)]
      refine .sign (by decide) .negate ih <| .sign (by decide) .keep ih <|
        .sign (by decide) .complement ih ?_
      exact fun rest c h => hPowered _ c h.of_skipGaps

end Simulates

/-- Of a whole source nothing is left over, so the rest is empty. -/
theorem agrees_whole (lookup : Text → Option UInt16) (source : Text) :
    Agrees source (meaning lookup source ((parse source).map fun e => (e, [])))
      (evaluate (Text.utf8 source) lookup) := by
  obtain ⟨c, hSkip, hStands⟩ := (Stands.start source).near.at_skipGaps
  rw [evaluate, whole, at_bind, hSkip]
  dsimp only
  rw [at_bind, at_get]
  dsimp only
  rw [hStands.byteAt_eq, Text.length_utf8, ← enoughRounds]
  cases hSource : Expression.skipGaps source with
  | nil =>
      rw [hSource] at hStands
      simp only [parse, hSource]
      exact .error ⟨_, hStands⟩
  | cons first rest =>
      rw [hSource] at hStands
      refine (Simulates.levels (.signedOperand _ _) _).bind hStands.near ?_ ?_ ?_
      · intro stuck hRead
        simp only [parse, hSource, hRead, Except.map]
      · intro e beyond error hRead hFails
        simp only [parse, hSource, hRead]
        split
        · exact meaning_ok_of_error hFails
        · exact meaning_obstacle_of_error hFails _
      · intro e beyond v d hRead hValue hBeyond
        obtain ⟨f, hEnd, hHere⟩ := hBeyond.at_skipGaps
        have hUnexpected := hHere.agrees_unexpected (isGap_of_mem_head?_skipGaps beyond)
        simp only [parse, hSource, hRead]
        rw [at_bind, hEnd]
        dsimp only
        rw [at_bind, at_get]
        dsimp only
        rw [hHere.byteAt_eq]
        cases hRest : Expression.skipGaps beyond with
        | nil =>
            rw [hRest] at hHere
            exact (meaning_ok hValue).symm ▸ .ok hHere.near
        | cons next last =>
            rw [hRest] at hUnexpected
            exact (meaning_obstacle hValue _).symm ▸ hUnexpected

/-- Evaluation over characters is the meaning of a whole source with nothing left over. -/
theorem evaluate_eq_map_meaning (lookup : Text → Option UInt16) (source : Text) :
    Expression.evaluate lookup source =
      (meaning lookup source ((parse source).map fun e => (e, []))).map Prod.fst := by
  unfold Expression.evaluate
  cases parse source with
  | ok e =>
      simp only [Except.map, meaning]
      cases e.value lookup <;> rfl
  | error stuck =>
      simp only [Except.map, meaning]
      cases stuck.completed.mapM (value lookup) <;> rfl

/-- Over the bytes of a source, evaluation comes to what it comes to over its characters. -/
theorem evaluate_utf8 (lookup : Text → Option UInt16) (source : Text) :
    (evaluate (Text.utf8 source) lookup).1 = Expression.evaluate lookup source := by
  have hAgrees := agrees_whole lookup source
  rw [evaluate_eq_map_meaning]
  generalize meaning lookup source ((parse source).map fun e => (e, [])) = expected at hAgrees ⊢
  generalize evaluate (Text.utf8 source) lookup = reached at hAgrees ⊢
  cases hAgrees <;> rfl

/-- Whatever the failure, the cursor stands between characters. -/
theorem Blames.exists_stands {c : Cursor} {error : Error} (h : Blames source c error) :
    ∃ rest, Stands source rest c := by
  cases error
  case endOfText => exact ⟨[], h⟩
  case unexpected =>
    obtain ⟨-, -, rest, hHere⟩ := h
    exact ⟨_, hHere⟩
  all_goals exact h

theorem Agrees.exists_stands {expected : Except Error (Int64 × Text)}
    {reached : Except Error Int64 × Cursor} (h : Agrees source expected reached) :
    ∃ rest, Stands source rest reached.2 := by
  cases h with
  | ok hNear => exact hNear.exists_stands
  | error hBlames => exact hBlames.exists_stands

theorem Agrees.blames {expected : Except Error (Int64 × Text)} {error : Error} {c : Cursor}
    (h : Agrees source expected (.error error, c)) : Blames source c error := by
  cases h with
  | error hBlames => exact hBlames

/-- What the lists say about an index is what strings mean by a character boundary. -/
theorem Splits.boundary {index : Nat} {rest : Text} (h : Splits source index rest) :
    index ≤ (String.ofList source).utf8ByteSize ∧
      String.Pos.Raw.IsValid (String.ofList source) ⟨index⟩ := by
  obtain ⟨front, rfl, rfl⟩ := h
  refine ⟨?_, Text.isValid_append front rest⟩
  rw [Text.utf8ByteSize_ofList, Text.utf8Size_append]
  exact Nat.le_add_right ..

/-- Evaluation over bytes has stood at character boundaries only. So the offset in a message is one
inside the source, the character in it stands there and is no gap, and a source that ends too early
has been read to its end and only lacks what is to follow. -/
theorem errors_point_at_characters (lookup : Text → Option UInt16) (source : Text)
    {outcome : Except Error Int64} {c : Cursor}
    (h : evaluate (Text.utf8 source) lookup = (outcome, c)) :
    outcome = Expression.evaluate lookup source ∧
    (∀ index ∈ c.pos :: c.passed, index ≤ (String.ofList source).utf8ByteSize ∧
      String.Pos.Raw.IsValid (String.ofList source) ⟨index⟩) ∧
    (∀ found offset, outcome = .error (.unexpected found offset) →
      offset = c.pos ∧ offset < (String.ofList source).utf8ByteSize ∧
      String.Pos.Raw.IsValid (String.ofList source) ⟨offset⟩ ∧
      String.Pos.Raw.get (String.ofList source) ⟨offset⟩ = found ∧ isGap found = false) ∧
    (outcome = .error .endOfText → c.pos = (String.ofList source).utf8ByteSize ∧
      ∃ more e, parse (source ++ more) = .ok e) := by
  have hValue := evaluate_utf8 lookup source
  have hAgrees := agrees_whole lookup source
  rw [h] at hValue hAgrees
  obtain ⟨rest, hStands⟩ := hAgrees.exists_stands
  refine ⟨hValue, ?_, ?_, ?_⟩
  · intro index hIndex
    rcases List.mem_cons.mp hIndex with rfl | hPassed
    · exact hStands.here.boundary
    · obtain ⟨before, hBefore⟩ := hStands.passed index hPassed
      exact hBefore.boundary
  · rintro found offset rfl
    obtain ⟨rfl, hToken, beyond, hHere⟩ := hAgrees.blames
    refine ⟨rfl, ?_, hHere.here.boundary.2, ?_, hToken⟩
    · obtain ⟨front, rfl, hPos⟩ := hHere.here
      have hSize := found.utf8Size_pos
      rw [Text.utf8ByteSize_ofList, Text.utf8Size_append, Text.utf8Size_cons, hPos]
      omega
    · obtain ⟨front, rfl, hPos⟩ := hHere.here
      rw [← hPos, Text.get_append]
  · rintro rfl
    obtain ⟨front, hSource, hPos⟩ := hAgrees.blames.here
    refine ⟨?_, exists_parse_of_endOfText hValue.symm⟩
    rw [← hPos, hSource, List.append_nil, Text.utf8ByteSize_ofList]

/-- The letter at which this stops has two bytes, so no other offset would do; it has been reached
over the three bytes before it. -/
theorem errors_point_at_characters_wide :
    evaluate (Text.utf8 "(_ é".toList) (fun _ => some 3) =
        (.error (.unexpected 'é' 3), ⟨3, [2, 1, 0]⟩) ∧
      3 < "(_ é".utf8ByteSize ∧ String.Pos.Raw.IsValid "(_ é" ⟨3⟩ ∧
      String.Pos.Raw.get "(_ é" ⟨3⟩ = 'é' ∧ isGap 'é' = false ∧
      evaluate (Text.utf8 "(".toList) (fun _ => none) = (.error .endOfText, ⟨1, [0]⟩) ∧
      1 = "(".utf8ByteSize ∧ ∃ more e, parse ("(".toList ++ more) = .ok e := by
  have hError : evaluate (Text.utf8 "(_ é".toList) (fun _ => some 3) =
      (.error (.unexpected 'é' 3), ⟨3, [2, 1, 0]⟩) := by decide +kernel
  have hEnd : evaluate (Text.utf8 "(".toList) (fun _ => none) = (.error .endOfText, ⟨1, [0]⟩) := by
    decide +kernel
  obtain ⟨-, -, hShown, -⟩ := errors_point_at_characters _ _ hError
  obtain ⟨-, -, -, hEnds⟩ := errors_point_at_characters _ _ hEnd
  obtain ⟨-, hInside, hValid, hFound, hToken⟩ := hShown 'é' 3 rfl
  rw [String.ofList_toList] at hInside hValid hFound
  obtain ⟨hSize, hMore⟩ := hEnds rfl
  rw [String.ofList_toList] at hSize
  exact ⟨hError, hInside, hValid, hFound, hToken, hEnd, hSize, hMore⟩

end TwoPass.Expression.Bytes
