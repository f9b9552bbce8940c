import Mathlib.Data.List.Basic
import Mathlib.Data.Nat.Digits.Defs
import Mathlib.Tactic.Ring
import TwoPass.Expression.Literal

/-! What numeric literals denote, apart from how they are read. What is left of a token without the
mark of its radix and without underscores has to be digits of that radix. No token is a literal in
two radices, because the letter of a mark is no decimal digit. -/
namespace TwoPass.Expression

/-- The radices in which numbers can be written. -/
inductive Radix where
  | hexadecimal
  | octal
  | binary
  | decimal
  deriving DecidableEq, Repr

namespace Radix

def base : Radix → Nat
  | .hexadecimal => 16
  | .octal => 8
  | .binary => 2
  | .decimal => 10

/-- What stands in front of the digits, in lower case. -/
def mark : Radix → Text
  | .hexadecimal => ['0', 'x']
  | .octal => ['0', 'o']
  | .binary => ['0', 'b']
  | .decimal => []

/-- A token has these digits, of which the first counts most. Letters may be of either case, and
behind the mark there may be underscores everywhere. -/
def Spells (radix : Radix) (digits : List Nat) (token : Text) : Prop :=
  ∃ spelled, token.map Char.toLower = radix.mark ++ spelled ∧
    spelled.filter (· != '_') = digits.map Nat.digitChar

/-- Digits that make a number: there are some, they exist in the radix, and decimal ones start with
a zero only if all of them are zero. -/
structure Proper (radix : Radix) (digits : List Nat) : Prop where
  nonempty : digits ≠ []
  below : ∀ d ∈ digits, d < radix.base
  noIdleZero : radix = .decimal → digits.head? = some 0 → ∀ d ∈ digits, d = 0

theorem base_le (radix : Radix) : radix.base ≤ 16 := by cases radix <;> decide

theorem one_lt_base (radix : Radix) : 1 < radix.base := by cases radix <;> decide

end Radix

/-- The token is a literal of the number. -/
def Denotes (token : Text) (n : Nat) : Prop :=
  ∃ (radix : Radix) (digits : List Nat), radix.Spells digits token ∧ radix.Proper digits ∧
    Nat.ofDigits radix.base digits.reverse = n

/-- The token is a literal of the number that the word holds. -/
def DenotesWord (token : Text) (v : Int64) : Prop :=
  ∃ n : Nat, Denotes token n ∧ v.toInt = n

section Digits

variable {base : Nat} (hBase : base ≤ 16)

include hBase

/-- A digit is read as what it counts. -/
theorem digitBelow?_digitChar {d : Nat} (hDigit : d < base) :
    digitBelow? base (Nat.digitChar d) = some d := by
  have hValues : ∀ d < 16, digitValue? (Nat.digitChar d) = some d := by decide
  rw [digitBelow?, hValues d (by omega)]
  simp [hDigit]

/-- Nothing else is read as a digit. -/
theorem digitBelow?_eq_some_iff {d : Nat} {c : Char} :
    digitBelow? base c = some d ↔ d < base ∧ c = Nat.digitChar d := by
  constructor
  · intro h
    obtain ⟨hValue, hBelow⟩ := Option.filter_eq_some_iff.mp h
    have hBelow : d < base := of_decide_eq_true hBelow
    refine ⟨hBelow, Char.toNat_inj.mp ?_⟩
    have hCodes : ∀ d < 16, (Nat.digitChar d).toNat = if d < 10 then d + 48 else d + 87 := by decide
    rw [hCodes d (by omega)]
    unfold digitValue? at hValue
    split at hValue
    · next hRange =>
        have hLow : 48 ≤ c.toNat := hRange.1
        have hHigh : c.toNat ≤ 57 := hRange.2
        cases hValue
        change c.toNat = if c.toNat - 48 < 10 then c.toNat - 48 + 48 else c.toNat - 48 + 87
        split <;> omega
    · split at hValue
      · next hRange =>
          have hLow : 97 ≤ c.toNat := hRange.1
          cases hValue
          change c.toNat = if c.toNat - 97 + 10 < 10 then c.toNat - 97 + 10 + 48
            else c.toNat - 97 + 10 + 87
          split <;> omega
      · cases hValue
  · rintro ⟨hBelow, rfl⟩
    exact digitBelow?_digitChar hBase hBelow

/-- Digits are added below what stands in front of them. -/
theorem positionalFrom?_eq_some_iff {high n : Nat} {spelled : Text} :
    positionalFrom? base high spelled = some n ↔
      ∃ digits : List Nat, spelled = digits.map Nat.digitChar ∧ (∀ d ∈ digits, d < base) ∧
        high * base ^ digits.length + Nat.ofDigits base digits.reverse = n := by
  have hCons : ∀ (high d : Nat) (digits : List Nat),
      high * base ^ (d :: digits).length + Nat.ofDigits base (d :: digits).reverse =
        (high * base + d) * base ^ digits.length + Nat.ofDigits base digits.reverse := by
    intro high d digits
    rw [List.reverse_cons, Nat.ofDigits_append, Nat.ofDigits_singleton, List.length_reverse,
      List.length_cons]
    ring
  induction spelled generalizing high with
  | nil =>
      constructor
      · intro h
        cases h
        exact ⟨[], rfl, by simp, by simp⟩
      · rintro ⟨digits, hSpelled, -, rfl⟩
        rw [List.map_eq_nil_iff.mp hSpelled.symm]
        simp [positionalFrom?]
  | cons c rest ih =>
      rw [positionalFrom?, Option.bind_eq_some_iff]
      constructor
      · rintro ⟨d, hDigit, hRest⟩
        obtain ⟨hBelow, rfl⟩ := (digitBelow?_eq_some_iff hBase).mp hDigit
        obtain ⟨digits, rfl, hDigits, rfl⟩ := ih.mp hRest
        exact ⟨d :: digits, rfl, List.forall_mem_cons.mpr ⟨hBelow, hDigits⟩, hCons high d digits⟩
      · rintro ⟨digits, hSpelled, hDigits, rfl⟩
        obtain ⟨d, others, rfl, rfl, rfl⟩ := List.map_eq_cons_iff.mp hSpelled.symm
        rw [List.forall_mem_cons] at hDigits
        exact ⟨d, digitBelow?_digitChar hBase hDigits.1,
          ih.mpr ⟨others, rfl, hDigits.2, (hCons high d others).symm⟩⟩

end Digits

namespace Radix

variable {radix : Radix} {digits : List Nat} {token : Text}

/-- Each text has a radix, and what stands behind its mark. -/
theorem exists_splitRadix (s : Text) :
    ∃ (radix : Radix) (spelled : Text), s = radix.mark ++ spelled ∧
      splitRadix s = (radix.base, spelled) := by
  unfold splitRadix
  split
  · exact ⟨.hexadecimal, _, rfl, rfl⟩
  · exact ⟨.octal, _, rfl, rfl⟩
  · exact ⟨.binary, _, rfl, rfl⟩
  · exact ⟨.decimal, _, rfl, rfl⟩

/-- Decimal digits never look like the mark of another radix. -/
theorem splitRadix_mark {spelled : Text}
    (hDecimal : radix = .decimal → ∀ c ∈ spelled, c ∉ ['x', 'o', 'b']) :
    splitRadix (radix.mark ++ spelled) = (radix.base, spelled) := by
  cases radix with
  | decimal =>
      have hLetters := hDecimal rfl
      change splitRadix spelled = (10, spelled)
      unfold splitRadix
      split
      · exact absurd (hLetters 'x' (by simp)) (by decide)
      · exact absurd (hLetters 'o' (by simp)) (by decide)
      · exact absurd (hLetters 'b' (by simp)) (by decide)
      · rfl
  | _ => rfl

/-- A leading zero is idle unless all digits are zeros. -/
theorem hasIdleZero_eq_false_iff (digits : List Nat) :
    hasIdleZero (digits.map Nat.digitChar) = false ↔
      (digits.head? = some 0 → ∀ d ∈ digits, d = 0) := by
  cases digits with
  | nil => simp [hasIdleZero]
  | cons d others =>
      by_cases hHead : d = 0
      · subst hHead
        cases others <;> simp [hasIdleZero]
      · simp [hasIdleZero, hHead]

/-- Behind the mark there are underscores and digits only. -/
theorem Spells.exists_digit {spelled : Text}
    (hSpelled : spelled.filter (· != '_') = digits.map Nat.digitChar) :
    ∀ c ∈ spelled, c = '_' ∨ ∃ d ∈ digits, c = Nat.digitChar d := by
  intro c hMem
  by_cases hUnderscore : c = '_'
  · exact .inl hUnderscore
  · have hDigit : c ∈ digits.map Nat.digitChar := by
      rw [← hSpelled, List.mem_filter]
      exact ⟨hMem, by simp [hUnderscore]⟩
    obtain ⟨d, hd, rfl⟩ := List.mem_map.mp hDigit
    exact .inr ⟨d, hd, rfl⟩

/-- Decimal digits hold no letter that could mark another radix. -/
theorem Spells.not_mem_letters {spelled : Text} (hBelow : ∀ d ∈ digits, d < 10)
    (hSpelled : spelled.filter (· != '_') = digits.map Nat.digitChar) :
    ∀ c ∈ spelled, c ∉ ['x', 'o', 'b'] := by
  have hLetters : ∀ d < 10, Nat.digitChar d ∉ ['x', 'o', 'b'] := by decide
  intro c hMem
  rcases exists_digit hSpelled c hMem with rfl | ⟨d, hd, rfl⟩
  · decide
  · exact hLetters d (hBelow d hd)

/-- The checks of a literal ask whether its digits are proper for the radix. -/
theorem isEmpty_or_hasIdleZero_iff (hBelow : ∀ d ∈ digits, d < radix.base) :
    ((digits.map Nat.digitChar).isEmpty ||
      (radix.base == 10 && hasIdleZero (digits.map Nat.digitChar))) = false ↔
      radix.Proper digits := by
  have hDecimal : radix.base = 10 ↔ radix = .decimal := by cases radix <;> decide
  rw [Bool.or_eq_false_iff, Bool.and_eq_false_imp, beq_iff_eq, hDecimal, hasIdleZero_eq_false_iff]
  constructor
  · rintro ⟨hNonempty, hZero⟩
    refine ⟨?_, hBelow, hZero⟩
    rintro rfl
    cases hNonempty
  · rintro ⟨hNonempty, -, hZero⟩
    refine ⟨?_, hZero⟩
    cases digits with
    | nil => exact absurd rfl hNonempty
    | cons d others => rfl

end Radix

/-- A token is read as a word exactly if it is a literal of a number that a word can hold. -/
theorem literal?_eq_some_iff {token : Text} {v : Int64} :
    literal? token = some v ↔ ∃ n, Denotes token n ∧ n < 2 ^ 63 ∧ v.toInt = n := by
  constructor
  · intro h
    obtain ⟨radix, spelled, hMark, hSplit⟩ := Radix.exists_splitRadix (token.map Char.toLower)
    unfold literal? at h
    simp only [hSplit] at h
    split at h
    · cases h
    · next hProper =>
        split at h
        · next n hPositional =>
            obtain ⟨digits, hDigits, hBelow, rfl⟩ :=
              (positionalFrom?_eq_some_iff radix.base_le).mp hPositional
            split at h
            · next hSmall =>
                cases h
                rw [hDigits, Bool.not_eq_true, Radix.isEmpty_or_hasIdleZero_iff hBelow] at hProper
                rw [Nat.zero_mul, Nat.zero_add] at hSmall ⊢
                exact ⟨_, ⟨radix, digits, ⟨spelled, hMark, hDigits⟩, hProper, rfl⟩, hSmall,
                  Int64.toInt_ofNat_of_lt hSmall⟩
            · cases h
        · cases h
  · rintro ⟨n, ⟨radix, digits, ⟨spelled, hMark, hDigits⟩, hProper, hNumber⟩, hSmall, hValue⟩
    have hSplit : splitRadix (token.map Char.toLower) = (radix.base, spelled) := by
      rw [hMark]
      refine Radix.splitRadix_mark fun hDecimal => ?_
      subst hDecimal
      exact Radix.Spells.not_mem_letters hProper.below hDigits
    have hPositional : positionalFrom? radix.base 0 (digits.map Nat.digitChar) = some n :=
      (positionalFrom?_eq_some_iff radix.base_le).mpr
        ⟨digits, rfl, hProper.below, by rw [Nat.zero_mul, Nat.zero_add, hNumber]⟩
    have hWord : Int64.ofNat n = v := by
      rw [← Int64.toInt_inj, Int64.toInt_ofNat_of_lt hSmall, hValue]
    have hAccepted := (Radix.isEmpty_or_hasIdleZero_iff hProper.below).mpr hProper
    unfold literal?
    simp only [hSplit, hDigits, hPositional]
    rw [hAccepted, if_neg Bool.false_ne_true, if_pos (show n < Nat.pow 2 63 from hSmall), hWord]

/-- Literals are the words that the grammar of numbers allows. -/
theorem literal?_eq_some_iff_denotesWord {token : Text} {v : Int64} :
    literal? token = some v ↔ DenotesWord token v := by
  rw [literal?_eq_some_iff]
  constructor
  · rintro ⟨n, hDenotes, -, hValue⟩
    exact ⟨n, hDenotes, hValue⟩
  · rintro ⟨n, hDenotes, hValue⟩
    have hSmall := v.toInt_lt
    exact ⟨n, hDenotes, by omega, hValue⟩

end TwoPass.Expression
