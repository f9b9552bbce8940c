import TwoPass.Expression.Reading
import TwoPass.Proofs.Expression.Numeral

/-! The grammar of operand expressions, apart from the reader. A derivation says which tokens
stand for which tree, and how many signed operands are open inside each other on the way. Gaps
between tokens are no part of a derivation; they come in when a text spells its tokens. -/
namespace TwoPass.Expression

/-- The levels of the grammar, from the loosest to the tightest. -/
inductive Level where
  | or
  | xor
  | and
  | shift
  | sum
  | product
  | signed
  | power
  | primary
  deriving DecidableEq, Repr

namespace Level

/-- The level of the operands of a level. A primary has none. -/
def tighter : Level → Level
  | .or => .xor
  | .xor => .and
  | .and => .shift
  | .shift => .sum
  | .sum => .product
  | .product => .signed
  | .signed => .power
  | .power | .primary => .primary

/-- Whether a level is one of binary operators that associate to the left. -/
def associates : Level → Bool
  | .signed | .power | .primary => false
  | _ => true

end Level

/-- The level whose expressions an operator makes. -/
def BinaryOp.level : BinaryOp → Level
  | .or => .or
  | .xor => .xor
  | .and => .and
  | .shiftLeft | .shiftRight => .shift
  | .add | .sub => .sum
  | .mul | .floorDiv | .floorMod => .product
  | .power => .power

def BinaryOp.spelling : BinaryOp → Text
  | .or => ['|']
  | .xor => ['^']
  | .and => ['&']
  | .shiftLeft => ['<', '<']
  | .shiftRight => ['>', '>']
  | .add => ['+']
  | .sub => ['-']
  | .mul => ['*']
  | .floorDiv => ['/', '/']
  | .floorMod => ['%']
  | .power => ['*', '*']

def UnaryOp.spelling : UnaryOp → Text
  | .negate => ['-']
  | .keep => ['+']
  | .complement => ['~']

/-- Whether a text is a single token that starts with a digit. -/
def isNumeral : Text → Bool
  | [] => false
  | c :: rest => c.isDigit && rest.all isNameChar

/-- A derivation of an expression of some level. -/
inductive Derivation : Level → Type where
  | literal (token : Text) (v : Int64) (hToken : isNumeral token = true)
      (hValue : DenotesWord token v) : Derivation .primary
  | name (token : Text) (hToken : isName token = true) : Derivation .primary
  | parens (inner : Derivation .or) : Derivation .primary
  | power (base : Derivation .primary) (exponent : Derivation .signed) : Derivation .power
  | unary (op : UnaryOp) (operand : Derivation .signed) : Derivation .signed
  | binary {level : Level} (hLevel : level.associates = true) (op : BinaryOp)
      (hOp : op.level = level) (left : Derivation level) (right : Derivation level.tighter) :
      Derivation level
  /-- An expression of a tighter level, as it stands. -/
  | lift {level : Level} (hLevel : level ≠ .primary) (inner : Derivation level.tighter) :
      Derivation level

namespace Derivation

/-- The tree that is evaluated. -/
def tree {level : Level} : Derivation level → Expression
  | .literal _ v _ _ => .literal v
  | .name token _ => .name token
  | .parens inner => inner.tree
  | .power base exponent => .binary .power base.tree exponent.tree
  | .unary op operand => .unary op operand.tree
  | .binary _ op _ left right => .binary op left.tree right.tree
  | .lift _ inner => inner.tree

/-- The tokens from left to right. -/
def tokens {level : Level} : Derivation level → List Text
  | .literal token _ _ _ => [token]
  | .name token _ => [token]
  | .parens inner => ['('] :: inner.tokens ++ [[')']]
  | .power base exponent => base.tokens ++ BinaryOp.power.spelling :: exponent.tokens
  | .unary op operand => op.spelling :: operand.tokens
  | .binary _ op _ left right => left.tokens ++ op.spelling :: right.tokens
  | .lift _ inner => inner.tokens

/-- How many expressions of the signed level are open inside each other at most. A sign counts
once for itself; so does a power or a primary where a sign could have stood. -/
def depth {level : Level} : Derivation level → Nat
  | .literal .. | .name .. => 0
  | .parens inner => inner.depth
  | .power base exponent => max base.depth exponent.depth
  | .unary _ operand => operand.depth + 1
  | .binary _ _ _ left right => max left.depth right.depth
  | @lift level _ inner => if level = .signed then inner.depth + 1 else inner.depth

def ofPrimary (primary : Derivation .primary) : Derivation .power := .lift (by decide) primary

def ofPower (power : Derivation .power) : Derivation .signed := .lift (by decide) power

/-- A signed operand as an expression of the loosest level. -/
def ofSigned (operand : Derivation .signed) : Derivation .or :=
  .lift (by decide) <| .lift (by decide) <| .lift (by decide) <| .lift (by decide) <|
    .lift (by decide) <| .lift (by decide) operand

end Derivation

/-- A text spells tokens if it consists of them, in order, each with any number of gaps in front
of it. -/
inductive Spells : List Text → Text → Prop where
  | nil : Spells [] []
  | cons {gap token s : Text} {tokens : List Text} (hGap : gap.all isGap = true)
      (others : Spells tokens s) : Spells (token :: tokens) (gap ++ (token ++ s))

/-- A whole source may also end with gaps. -/
def SpelledBy (source : Text) (tokens : List Text) : Prop :=
  ∃ body gap, source = body ++ gap ∧ Spells tokens body ∧ gap.all isGap = true

namespace Spells

variable {ts us : List Text} {s t : Text}

theorem token (token : Text) (h : Spells ts s) : Spells (token :: ts) (token ++ s) :=
  @Spells.cons [] token s ts rfl h

theorem single (token : Text) : Spells [token] token := by
  simpa using Spells.nil.token token

/-- What is spelled by two lists of tokens is spelled by both together. -/
theorem append (first : Spells ts s) (second : Spells us t) : Spells (ts ++ us) (s ++ t) := by
  induction first with
  | nil => exact second
  | cons hGap _ ih =>
      simp only [List.append_assoc]
      exact .cons hGap ih

/-- Tokens that stand one after another divide the text. -/
theorem split (h : Spells (ts ++ us) s) : ∃ a b, s = a ++ b ∧ Spells ts a ∧ Spells us b := by
  induction ts generalizing s with
  | nil => exact ⟨[], s, rfl, .nil, h⟩
  | cons token rest ih =>
      obtain _ | ⟨hGap, others⟩ := h
      obtain ⟨a, b, rfl, hFirst, hSecond⟩ := ih others
      exact ⟨_, b, by simp only [List.append_assoc], .cons hGap hFirst, hSecond⟩

/-- Gaps in front of the first token may be more. -/
theorem widen {gap : Text} (hGap : gap.all isGap = true) (hTokens : ts ≠ []) (h : Spells ts s) :
    Spells ts (gap ++ s) := by
  cases h with
  | nil => exact absurd rfl hTokens
  | cons hInner others =>
      rw [← List.append_assoc]
      exact .cons (by rw [List.all_append, hGap, hInner]; rfl) others

/-- A token has at least one character. -/
theorem length_le (h : Spells ts s) (hTokens : ∀ token ∈ ts, token ≠ []) :
    ts.length ≤ s.length := by
  induction h with
  | nil => exact Nat.le_refl _
  | @cons gap token s tokens _ _ ih =>
      have hToken := List.length_pos_iff.mpr (hTokens token List.mem_cons_self)
      have hOthers := ih fun other hOther => hTokens other (List.mem_cons_of_mem _ hOther)
      simp only [List.length_cons, List.length_append]
      omega

end Spells

/-- There are rounds enough for one operator in front of each token. -/
theorem SpelledBy.length_le {source : Text} {tokens : List Text} (h : SpelledBy source tokens)
    (hTokens : ∀ token ∈ tokens, token ≠ []) : tokens.length ≤ enoughRounds source := by
  obtain ⟨body, gap, rfl, hSpells, -⟩ := h
  calc tokens.length
    _ ≤ body.length := hSpells.length_le hTokens
    _ ≤ (body ++ gap).length := by rw [List.length_append]; exact Nat.le_add_right ..
    _ ≤ enoughRounds (body ++ gap) := Text.length_le_utf8Size _

/-- A numeral is a word that starts with a digit. -/
theorem isNumeral_iff {token : Text} : isNumeral token = true ↔
    ∃ c rest, token = c :: rest ∧ c.isDigit = true ∧ rest.all isNameChar = true := by
  cases token <;> simp [isNumeral, and_assoc]

/-- A name is a word that starts with a letter or an underscore. -/
theorem isName_iff {token : Text} : isName token = true ↔
    ∃ c rest, token = c :: rest ∧ isNameStart c = true ∧ rest.all isNameChar = true := by
  cases token <;> simp [isName, and_assoc]

theorem isNameChar_of_isDigit {c : Char} (h : c.isDigit = true) : isNameChar c = true := by
  simp [isNameChar, Char.isAlphanum, h]

theorem isNameChar_of_isNameStart {c : Char} (h : isNameStart c = true) : isNameChar c = true := by
  rw [isNameStart, Bool.or_eq_true] at h
  rcases h with h | h <;> simp [isNameChar, Char.isAlphanum, h]

namespace Level

/-- The characters with which the expressions of a level start. -/
def opens : Level → Char → Bool
  | .power, c | .primary, c => c == '(' || isNameChar c
  | _, c => c == '-' || c == '+' || c == '~' || (c == '(' || isNameChar c)

/-- A looser level opens with all that a tighter one opens with. -/
theorem opens_of_tighter {level : Level} {c : Char} (h : level.tighter.opens c = true) :
    level.opens c = true := by
  cases level <;> simp_all [opens, tighter]

/-- The loosest level opens with everything that opens any level. -/
theorem or_opens {level : Level} {c : Char} (h : level.opens c = true) :
    Level.or.opens c = true := by
  cases level <;> simp_all [opens]

end Level

namespace Derivation

variable {level : Level}

/-- The first token starts as the level demands. -/
theorem tokens_opens (d : Derivation level) :
    ∃ c rest others, d.tokens = (c :: rest) :: others ∧ level.opens c = true := by
  induction d with
  | literal token v hToken hValue =>
      obtain ⟨c, rest, rfl, hDigit, -⟩ := isNumeral_iff.mp hToken
      exact ⟨c, rest, [], rfl, by simp [Level.opens, isNameChar_of_isDigit hDigit]⟩
  | name token hToken =>
      obtain ⟨c, rest, rfl, hStart, -⟩ := isName_iff.mp hToken
      exact ⟨c, rest, [], rfl, by simp [Level.opens, isNameChar_of_isNameStart hStart]⟩
  | parens inner => exact ⟨'(', [], _, rfl, rfl⟩
  | power base exponent ih =>
      obtain ⟨c, rest, others, hTokens, hOpens⟩ := ih
      exact ⟨c, rest, _, by rw [tokens, hTokens]; rfl, hOpens⟩
  | unary op operand => cases op <;> exact ⟨_, [], _, rfl, rfl⟩
  | binary hLevel op hOp left right ih =>
      obtain ⟨c, rest, others, hTokens, hOpens⟩ := ih
      exact ⟨c, rest, _, by rw [tokens, hTokens]; rfl, hOpens⟩
  | lift hLevel inner ih =>
      obtain ⟨c, rest, others, hTokens, hOpens⟩ := ih
      exact ⟨c, rest, others, hTokens, Level.opens_of_tighter hOpens⟩

/-- Behind its gaps, the text of a derivation starts as the level demands. -/
theorem exists_first (d : Derivation level) {s : Text} (hSpells : Spells d.tokens s) :
    ∃ gap c tail, gap.all isGap = true ∧ level.opens c = true ∧ s = gap ++ c :: tail := by
  obtain ⟨c, rest, others, hTokens, hOpens⟩ := d.tokens_opens
  rw [hTokens] at hSpells
  obtain _ | ⟨hGap, _⟩ := hSpells
  exact ⟨_, c, _, hGap, hOpens, rfl⟩

theorem tokens_ne_nil (d : Derivation level) : d.tokens ≠ [] := by
  obtain ⟨c, rest, others, hTokens, -⟩ := d.tokens_opens
  rw [hTokens]
  exact List.cons_ne_nil _ _

/-- No token is empty, so each has room in the source. -/
theorem ne_nil_of_mem_tokens (d : Derivation level) : ∀ token ∈ d.tokens, token ≠ [] := by
  have hOperator : ∀ op : BinaryOp, op.spelling ≠ [] := by intro op; cases op <;> decide
  have hSign : ∀ op : UnaryOp, op.spelling ≠ [] := by intro op; cases op <;> decide
  induction d with
  | literal token v hToken hValue =>
      obtain ⟨c, rest, rfl, -⟩ := isNumeral_iff.mp hToken
      exact List.forall_mem_singleton.mpr (List.cons_ne_nil _ _)
  | name token hToken =>
      obtain ⟨c, rest, rfl, -⟩ := isName_iff.mp hToken
      exact List.forall_mem_singleton.mpr (List.cons_ne_nil _ _)
  | parens inner ih =>
      rw [tokens, List.forall_mem_append, List.forall_mem_cons, List.forall_mem_singleton]
      exact ⟨⟨by decide, ih⟩, by decide⟩
  | power base exponent ihBase ihExponent =>
      rw [tokens, List.forall_mem_append, List.forall_mem_cons]
      exact ⟨ihBase, hOperator _, ihExponent⟩
  | unary op operand ih => exact List.forall_mem_cons.mpr ⟨hSign op, ih⟩
  | binary hLevel op hOp left right ihLeft ihRight =>
      rw [tokens, List.forall_mem_append, List.forall_mem_cons]
      exact ⟨ihLeft, hOperator op, ihRight⟩
  | lift hLevel inner ih => exact ih

end Derivation

end TwoPass.Expression
