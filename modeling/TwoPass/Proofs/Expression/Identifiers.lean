import Mathlib.Data.List.Basic
import TwoPass.Proofs.Expression.Completeness
import TwoPass.Proofs.Expression.Mention
import TwoPass.Proofs.Symbol.Order

/-! The identifiers of a text. They can be found without reading the text as an expression, since
they are cut out by the characters around them. Reading takes them off the text one after the other
and passes none over, so the names that are looked up are identifiers of the text, wherever reading
stops. -/
namespace TwoPass.Expression

/-- The longest runs of name characters in a text, as far as they are names, from left to right. A
run that starts with a digit is no name. -/
def identifiers (source : Text) : List Text :=
  (source.splitOnP fun c => !isNameChar c).filter isName

/-- A character outside words separates them. -/
theorem identifiers_cons {c : Char} (hMark : isNameChar c = false) (s : Text) :
    identifiers (c :: s) = identifiers s := by
  rw [identifiers, List.splitOnP_cons_eq_if_modifyHead, if_pos (by simp [hMark])]
  rfl

/-- So do any number of them. -/
theorem identifiers_append {front : Text} (hFront : front.all (!isNameChar ·) = true) (s : Text) :
    identifiers (front ++ s) = identifiers s := by
  induction front with
  | nil => rfl
  | cons c front ih =>
      rw [List.all_cons, Bool.and_eq_true, Bool.not_eq_true'] at hFront
      rw [List.cons_append, identifiers_cons hFront.1, ih hFront.2]

/-- A word in front is an identifier if it is a name. It must not go on behind its end. -/
theorem identifiers_word {word rest : Text} (hWord : word.all isNameChar = true)
    (hRest : ∀ c ∈ rest.head?, isNameChar c = false) :
    identifiers (word ++ rest) = [word].filter isName ++ identifiers rest := by
  have hInside : ∀ c ∈ word, (!isNameChar c) = false := by
    intro c hMem
    rw [List.all_eq_true.mp hWord c hMem]
    rfl
  cases rest with
  | nil =>
      rw [List.append_nil, identifiers, List.splitOnP_eq_singleton hInside]
      exact (List.append_nil _).symm
  | cons c rest =>
      have hMark : isNameChar c = false := hRest c rfl
      rw [identifiers_cons hMark, identifiers, identifiers,
        List.splitOnP_append_cons_of_forall_mem hInside c (by simp [hMark])]
      exact List.filter_append [word] _

/-- The word at the front of a text, which may be empty, and what follows it. -/
theorem identifiers_span (s : Text) :
    identifiers s =
      [s.takeWhile isNameChar].filter isName ++ identifiers (s.dropWhile isNameChar) := by
  have hEnd : ∀ c ∈ (s.dropWhile isNameChar).head?, isNameChar c = false := by
    intro c hHead
    have hNot := List.head?_dropWhile_not isNameChar s
    rw [Option.mem_def.mp hHead] at hNot
    simpa using hNot
  rw [← identifiers_word List.all_takeWhile hEnd, List.takeWhile_append_dropWhile]

/-- Gaps hold no identifier. -/
theorem identifiers_skipGaps (s : Text) : identifiers (skipGaps s) = identifiers s := by
  obtain ⟨gap, hGap, hText⟩ := exists_gap s
  have hMarks : gap.all (!isNameChar ·) = true := by
    refine List.all_eq_true.mpr fun c hMem => ?_
    rw [isNameChar_of_isGap (List.all_eq_true.mp hGap c hMem)]
    rfl
  calc identifiers (skipGaps s) = identifiers (gap ++ skipGaps s) :=
        (identifiers_append hMarks _).symm
    _ = identifiers s := by rw [← hText]

/-- Operators have no names in them. -/
theorem identifiers_of_joint {level : Level} {s rest : Text} {op : BinaryOp}
    (h : level.joint s = .operator op rest) : identifiers s = identifiers rest := by
  obtain ⟨-, gap, hGap, hText⟩ := level.joint_spelled s op rest h
  have hSpelling : op.spelling.all (!isNameChar ·) = true := by cases op <;> decide
  rw [← identifiers_skipGaps, hText, skipGaps_append hGap, identifiers_skipGaps,
    identifiers_append hSpelling]

/-- What has been read accounts for identifiers in their order. If reading stopped, then it did so
in front of some of them. -/
def Accounts (expected : List Text) : Except Stuck (Expression × Text) → Prop
  | .ok (e, rest) => expected = e.names ++ identifiers rest
  | .error stuck => stuck.completed.flatMap names <+: expected

namespace Accounts

variable {operand : Reader} {expected : List Text}

/-- An operand completed before the obstacle has its names in front. -/
theorem after {stuck : Stuck} (left : Expression) (h : Accounts expected (.error stuck)) :
    Accounts (left.names ++ expected) (.error (stuck.after left)) :=
  (List.prefix_append_right_inj _).mpr h

/-- Each round of a chain hands on the names that it has taken so far. -/
theorem chainFrom (hOperand : ∀ s, Accounts (identifiers s) (operand s)) (level : Level)
    (rounds : Nat) (left : Expression) (s : Text) :
    Accounts (left.names ++ identifiers s) (chainFrom level.joint operand rounds left s) := by
  induction rounds generalizing left s with
  | zero => exact rfl
  | succ rounds ih =>
      rw [Expression.chainFrom]
      cases hJoint : level.joint s with
      | none => exact rfl
      | refused obstacle => exact ⟨identifiers s, by simp⟩
      | operator op beyond =>
          rw [identifiers_of_joint hJoint]
          have hRight := hOperand beyond
          dsimp only
          cases hRead : operand beyond with
          | error stuck =>
              rw [hRead] at hRight
              exact hRight.after left
          | ok taken =>
              obtain ⟨right, rest⟩ := taken
              rw [hRead] at hRight
              have hRight : identifiers beyond = right.names ++ identifiers rest := hRight
              rw [hRight, ← List.append_assoc]
              exact ih (.binary op left right) rest

/-- A level accounts for the names of its first operand and of the chain behind it. -/
theorem chain (hOperand : ∀ s, Accounts (identifiers s) (operand s)) (level : Level)
    (rounds : Nat) (s : Text) : Accounts (identifiers s) (chain rounds level.joint operand s) := by
  have hFirst := hOperand s
  unfold Expression.chain
  cases hRead : operand s with
  | error stuck =>
      rw [hRead] at hFirst
      exact hFirst
  | ok taken =>
      obtain ⟨first, rest⟩ := taken
      rw [hRead] at hFirst
      have hFirst : identifiers s = first.names ++ identifiers rest := hFirst
      rw [hFirst]
      exact chainFrom hOperand level rounds first rest

theorem levels (hOperand : ∀ s, Accounts (identifiers s) (operand s)) (rounds : Nat) (s : Text) :
    Accounts (identifiers s) (levels rounds operand s) := by
  have hProduct := chain hOperand .product rounds
  have hSum := chain hProduct .sum rounds
  have hShift := chain hSum .shift rounds
  have hAnd := chain hShift .and rounds
  have hXor := chain hAnd .xor rounds
  exact chain hXor .or rounds s

/-- The word of a name is the first identifier of the text; a literal is none. -/
theorem primary (hOperand : ∀ s, Accounts (identifiers s) (operand s)) (rounds : Nat) (s : Text) :
    Accounts (identifiers s) (primary rounds operand s) := by
  rw [← identifiers_skipGaps]
  unfold Expression.primary
  cases skipGaps s with
  | nil => exact List.nil_prefix
  | cons c tail =>
      dsimp only
      split
      · next hParen =>
          subst hParen
          rw [identifiers_cons (by decide)]
          have hInner := levels hOperand rounds tail
          cases hRead : Expression.levels rounds operand tail with
          | error stuck =>
              rw [hRead] at hInner
              exact hInner
          | ok taken =>
              obtain ⟨inner, rest⟩ := taken
              rw [hRead] at hInner
              have hInner : identifiers tail = inner.names ++ identifiers rest := hInner
              rw [hInner, ← identifiers_skipGaps rest]
              dsimp only
              split
              · next hClose =>
                  rw [hClose, identifiers_cons (by decide)]
                  exact rfl
              · exact ⟨identifiers (skipGaps rest), by simp⟩
      · rw [identifiers_span]
        split
        · next hDigit =>
            have hNumeral : isName ((c :: tail).takeWhile isNameChar) = false := by
              rw [List.takeWhile_cons_of_pos (isNameChar_of_isDigit hDigit), isName]
              cases hStart : isNameStart c with
              | false => rfl
              | true =>
                  rw [isDigit_of_isNameStart hStart] at hDigit
                  cases hDigit
            split
            · rw [List.filter_cons_of_neg (by simp [hNumeral])]
              exact rfl
            · exact List.nil_prefix
        · split
          · next hStart =>
              have hName : isName ((c :: tail).takeWhile isNameChar) = true := by
                rw [List.takeWhile_cons_of_pos (isNameChar_of_isNameStart hStart), isName, hStart]
                exact List.all_takeWhile
              rw [List.filter_cons_of_pos hName]
              exact rfl
          · exact List.nil_prefix

/-- The names of the base come before those of the exponent. -/
theorem powered (hOperand : ∀ s, Accounts (identifiers s) (operand s)) (rounds : Nat) (s : Text) :
    Accounts (identifiers s) (powered rounds operand s) := by
  have hBase := primary hOperand rounds s
  unfold Expression.powered
  cases hRead : Expression.primary rounds operand s with
  | error stuck =>
      rw [hRead] at hBase
      exact hBase
  | ok taken =>
      obtain ⟨base, rest⟩ := taken
      rw [hRead] at hBase
      have hBase : identifiers s = base.names ++ identifiers rest := hBase
      rw [hBase]
      dsimp only
      cases hDouble : double? '*' rest with
      | none => exact rfl
      | some beyond =>
          rw [identifiers_of_joint (Level.joint_power_eq_operator_iff.mpr hDouble)]
          have hExponent := hOperand beyond
          dsimp only
          cases hRead : operand beyond with
          | error stuck =>
              rw [hRead] at hExponent
              exact hExponent.after base
          | ok taken =>
              obtain ⟨exponent, rest⟩ := taken
              rw [hRead] at hExponent
              have hExponent : identifiers beyond = exponent.names ++ identifiers rest := hExponent
              rw [hExponent, ← List.append_assoc]
              exact rfl

theorem prefixed (hOperand : ∀ s, Accounts (identifiers s) (operand s)) (op : UnaryOp) (s : Text) :
    Accounts (identifiers s) (prefixed op operand s) := by
  have hInner := hOperand s
  unfold Expression.prefixed
  cases hRead : operand s with
  | error stuck =>
      rw [hRead] at hInner
      exact hInner
  | ok taken =>
      rw [hRead] at hInner
      exact hInner

/-- Signs hold no identifier. -/
theorem signedOperand (rounds depth : Nat) (s : Text) :
    Accounts (identifiers s) (signedOperand rounds depth s) := by
  induction depth generalizing s with
  | zero => exact List.nil_prefix
  | succ depth ih =>
      rw [← identifiers_skipGaps]
      unfold Expression.signedOperand
      split
      · next hSign =>
          rw [hSign, identifiers_cons (by decide)]
          exact prefixed ih .negate _
      · next hSign =>
          rw [hSign, identifiers_cons (by decide)]
          exact prefixed ih .keep _
      · next hSign =>
          rw [hSign, identifiers_cons (by decide)]
          exact prefixed ih .complement _
      · exact powered ih rounds _

end Accounts

/-- The names that a text mentions are the first of its identifiers. -/
theorem mentioned_first (source : Text) : mentioned source <+: identifiers source := by
  have hOperand := Accounts.signedOperand (enoughRounds source) depthLimit
  have hRead := Accounts.levels hOperand (enoughRounds source) (skipGaps source)
  rw [identifiers_skipGaps] at hRead
  unfold mentioned parse
  cases hSkip : skipGaps source with
  | nil => exact List.nil_prefix
  | cons c tail =>
      rw [hSkip] at hRead
      dsimp only
      generalize levels (enoughRounds source) (signedOperand (enoughRounds source) depthLimit)
        (c :: tail) = taken at hRead ⊢
      cases taken with
      | error stuck => exact hRead
      | ok taken =>
          obtain ⟨e, rest⟩ := taken
          have hNames : e.names <+: identifiers source := ⟨identifiers rest, hRead.symm⟩
          dsimp only
          split
          · next hParse =>
              split at hParse <;> cases hParse
              exact hNames
          · next hParse =>
              split at hParse <;> cases hParse
              simpa using hNames

/-- What a text comes to depends on nothing but the values of its identifiers, and a value that it
has stays if more names get values. -/
theorem evaluation_depends_on_identifiers (lookup other : Text → Option UInt16) (source : Text) :
    ((∀ name ∈ identifiers source, lookup name = other name) →
      evaluate lookup source = evaluate other source) ∧
    ∀ v, evaluate lookup source = .ok v →
      (∀ name w, lookup name = some w → other name = some w) → evaluate other source = .ok v := by
  constructor
  · intro hAgree
    exact evaluate_congr fun name hMem => hAgree name ((mentioned_first source).subset hMem)
  · intro v hValue hLarger
    exact evaluate_mono hLarger hValue

/-- The letters in a literal are no identifier, so it does not matter that one table has a value for
them. -/
theorem evaluation_depends_on_identifiers_apart :
    let smaller := SymbolTable.initial.define "loop".toList 7
    let larger := smaller.define "x1f".toList 1
    identifiers "loop*0x1f".toList = ["loop".toList] ∧
      evaluate smaller.get? "loop*0x1f".toList = evaluate larger.get? "loop*0x1f".toList ∧
      evaluate smaller.get? "loop*0x1f".toList = .ok 217 ∧
      evaluate larger.get? "loop*0x1f".toList = .ok 217 := by
  intro smaller larger
  have hNames : identifiers "loop*0x1f".toList = ["loop".toList] := by decide +kernel
  have hValue : evaluate smaller.get? "loop*0x1f".toList = .ok 217 := by decide +kernel
  have hAgree : ∀ name ∈ identifiers "loop*0x1f".toList, smaller.get? name = larger.get? name := by
    rw [hNames]
    decide +kernel
  have hLarger : ∀ name w, smaller.get? name = some w → larger.get? name = some w := by
    intro name w hFound
    rw [SymbolTable.get?_define, if_neg]
    · exact hFound
    · rintro ⟨rfl, -⟩
      have hFree : smaller.get? "x1f".toList = none := by decide +kernel
      rw [hFree] at hFound
      cases hFound
  obtain ⟨hCongr, hMono⟩ :=
    evaluation_depends_on_identifiers smaller.get? larger.get? "loop*0x1f".toList
  exact ⟨hNames, hCongr hAgree, hValue, hMono 217 hValue hLarger⟩

end TwoPass.Expression
