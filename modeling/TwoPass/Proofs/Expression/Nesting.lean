import TwoPass.Proofs.Expression.Completeness

/-! Reading with a smaller budget for open operands. It reads the same as with a larger one, or it
stops for want of depth, and then the expressions that it has completed are parts of the one that
the larger budget reads. Since some budget suffices for every derivation, a text spells at most one
tree. -/
namespace TwoPass.Expression

/-- A tree and all its parts. -/
def subterms : Expression → List Expression
  | .literal v => [.literal v]
  | .name n => [.name n]
  | .unary op operand => .unary op operand :: operand.subterms
  | .binary op left right => .binary op left right :: (left.subterms ++ right.subterms)

section Subterms

variable {c d e : Expression}

theorem self_mem_subterms (e : Expression) : e ∈ e.subterms := by
  cases e <;> exact List.mem_cons_self

/-- Parts of parts are parts. -/
theorem subterms_trans (hc : c ∈ d.subterms) (hd : d ∈ e.subterms) : c ∈ e.subterms := by
  induction e with
  | literal v =>
      cases List.mem_singleton.mp hd
      exact hc
  | name n =>
      cases List.mem_singleton.mp hd
      exact hc
  | unary op operand ih =>
      rcases List.mem_cons.mp hd with rfl | hd
      · exact hc
      · exact List.mem_cons_of_mem _ (ih hd)
  | binary op left right ihLeft ihRight =>
      rcases List.mem_cons.mp hd with rfl | hd
      · exact hc
      · rcases List.mem_append.mp hd with hd | hd
        · exact List.mem_cons_of_mem _ (List.mem_append_left _ (ihLeft hd))
        · exact List.mem_cons_of_mem _ (List.mem_append_right _ (ihRight hd))

theorem left_mem_subterms (op : BinaryOp) (left right : Expression) :
    left ∈ (binary op left right).subterms :=
  List.mem_cons_of_mem _ (List.mem_append_left _ (self_mem_subterms left))

theorem right_mem_subterms (op : BinaryOp) (left right : Expression) :
    right ∈ (binary op left right).subterms :=
  List.mem_cons_of_mem _ (List.mem_append_right _ (self_mem_subterms right))

theorem operand_mem_subterms (op : UnaryOp) (operand : Expression) :
    operand ∈ (unary op operand).subterms :=
  List.mem_cons_of_mem _ (self_mem_subterms operand)

end Subterms

/-- What is read with a smaller budget, compared with what is read with a larger one. -/
def Curtails (small large : Except Stuck (Expression × Text)) : Prop :=
  small = large ∨ ∃ completed, small = .error ⟨completed, .tooDeep⟩ ∧
    ∀ e rest, large = .ok (e, rest) → ∀ part ∈ completed, part ∈ e.subterms

/-- What is on the left of a chain ends up inside the whole. -/
theorem left_mem_of_chainFrom {joint : Text → Joint} {operand : Reader} {rounds : Nat}
    {left e : Expression} {s rest : Text}
    (h : chainFrom joint operand rounds left s = .ok (e, rest)) : left ∈ e.subterms := by
  induction rounds generalizing left s with
  | zero =>
      cases h
      exact self_mem_subterms _
  | succ rounds ih =>
      rw [chainFrom] at h
      split at h
      · cases h
        exact self_mem_subterms _
      · cases h
      · split at h
        · cases h
        · exact subterms_trans (left_mem_subterms ..) (ih h)

namespace Curtails

variable {small large : Reader}

/-- With a smaller limit, a chain does the same until it meets the limit. -/
theorem chainFrom (hOperand : ∀ s, Curtails (small s) (large s)) (joint : Text → Joint)
    (rounds : Nat) (left : Expression) (s : Text) :
    Curtails (chainFrom joint small rounds left s) (chainFrom joint large rounds left s) := by
  induction rounds generalizing left s with
  | zero => exact .inl rfl
  | succ rounds ih =>
      simp only [Expression.chainFrom]
      cases joint s with
      | none => exact .inl rfl
      | refused obstacle => exact .inl rfl
      | operator op beyond =>
          dsimp only
          rcases hOperand beyond with hSame | ⟨completed, hStuck, hParts⟩
          · rw [hSame]
            cases large beyond with
            | error stuck => exact .inl rfl
            | ok taken => exact ih _ _
          · refine .inr ⟨left :: completed, by rw [hStuck]; rfl, ?_⟩
            intro e rest h
            cases hLarge : large beyond with
            | error stuck =>
                rw [hLarge] at h
                cases h
            | ok taken =>
                obtain ⟨right, behind⟩ := taken
                rw [hLarge] at h
                have hWhole := left_mem_of_chainFrom h
                rw [List.forall_mem_cons]
                refine ⟨subterms_trans (left_mem_subterms ..) hWhole, fun part hPart => ?_⟩
                exact subterms_trans (hParts right behind hLarge part hPart)
                  (subterms_trans (right_mem_subterms ..) hWhole)

/-- A level is curtailed as its operands are. -/
theorem chain (hOperand : ∀ s, Curtails (small s) (large s)) (joint : Text → Joint) (rounds : Nat)
    (s : Text) : Curtails (chain rounds joint small s) (chain rounds joint large s) := by
  unfold Expression.chain
  rcases hOperand s with hSame | ⟨completed, hStuck, hParts⟩
  · rw [hSame]
    cases large s with
    | error stuck => exact .inl rfl
    | ok taken => exact chainFrom hOperand joint rounds taken.1 taken.2
  · refine .inr ⟨completed, by rw [hStuck], ?_⟩
    intro e rest h part hPart
    cases hLarge : large s with
    | error stuck =>
        rw [hLarge] at h
        cases h
    | ok taken =>
        obtain ⟨first, behind⟩ := taken
        rw [hLarge] at h
        exact subterms_trans (hParts first behind hLarge part hPart) (left_mem_of_chainFrom h)

/-- So are all levels. -/
theorem levels (hOperand : ∀ s, Curtails (small s) (large s)) (rounds : Nat) (s : Text) :
    Curtails (levels rounds small s) (levels rounds large s) :=
  chain (chain (chain (chain (chain (chain hOperand productJoint rounds) sumJoint rounds)
    shiftJoint rounds) andJoint rounds) xorJoint rounds) orJoint rounds s

/-- Only what is in parentheses is read with the operands. -/
theorem primary (hOperand : ∀ s, Curtails (small s) (large s)) (rounds : Nat) (s : Text) :
    Curtails (primary rounds small s) (primary rounds large s) := by
  unfold Expression.primary
  cases skipGaps s with
  | nil => exact .inl rfl
  | cons c tail =>
      dsimp only
      split
      · rcases levels hOperand rounds tail with hSame | ⟨completed, hStuck, hParts⟩
        · rw [hSame]
          exact .inl rfl
        · refine .inr ⟨completed, by rw [hStuck], ?_⟩
          intro e rest h
          split at h
          · cases h
          · next inner behind hLarge =>
              split at h
              · cases h
                exact hParts _ behind hLarge
              · cases h
      · exact .inl rfl

/-- The base and the exponent are curtailed one after the other. -/
theorem powered (hOperand : ∀ s, Curtails (small s) (large s)) (rounds : Nat) (s : Text) :
    Curtails (powered rounds small s) (powered rounds large s) := by
  unfold Expression.powered
  rcases primary hOperand rounds s with hSame | ⟨completed, hStuck, hParts⟩
  · rw [hSame]
    cases Expression.primary rounds large s with
    | error stuck => exact .inl rfl
    | ok taken =>
        obtain ⟨base, behind⟩ := taken
        dsimp only
        cases double? '*' behind with
        | none => exact .inl rfl
        | some beyond =>
            dsimp only
            rcases hOperand beyond with hSame | ⟨completed, hStuck, hParts⟩
            · rw [hSame]
              exact .inl rfl
            · refine .inr ⟨base :: completed, by rw [hStuck]; rfl, ?_⟩
              intro e rest h
              split at h
              · cases h
              · next exponent after hLarge =>
                  cases h
                  rw [List.forall_mem_cons]
                  refine ⟨left_mem_subterms .., fun part hPart => ?_⟩
                  exact subterms_trans (hParts exponent _ hLarge part hPart) (right_mem_subterms ..)
  · refine .inr ⟨completed, by rw [hStuck], ?_⟩
    intro e rest h part hPart
    split at h
    · cases h
    · next base behind hLarge =>
        have hBase := hParts base behind hLarge part hPart
        split at h
        · cases h
          exact hBase
        · split at h
          · cases h
          · cases h
            exact subterms_trans hBase (left_mem_subterms ..)

theorem prefixed (hOperand : ∀ s, Curtails (small s) (large s)) (op : UnaryOp) (s : Text) :
    Curtails (prefixed op small s) (prefixed op large s) := by
  unfold Expression.prefixed
  rcases hOperand s with hSame | ⟨completed, hStuck, hParts⟩
  · rw [hSame]
    exact .inl rfl
  · refine .inr ⟨completed, by rw [hStuck], ?_⟩
    intro e rest h part hPart
    split at h
    · cases h
    · next operand behind hLarge =>
        cases h
        exact subterms_trans (hParts operand _ hLarge part hPart) (operand_mem_subterms ..)

/-- The induction is on the smaller limit. At zero everything is too deep, and else both go on
with one level less. -/
theorem signedOperand (rounds : Nat) {depth limit : Nat} (hDepth : depth ≤ limit) (s : Text) :
    Curtails (signedOperand rounds depth s) (signedOperand rounds limit s) := by
  induction depth generalizing limit s with
  | zero => exact .inr ⟨[], rfl, fun _ _ _ _ hPart => by cases hPart⟩
  | succ depth ih =>
      obtain ⟨limit, rfl⟩ := Nat.exists_eq_add_one_of_ne_zero (Nat.ne_zero_of_lt hDepth)
      have hOperand := fun s => ih (Nat.le_of_succ_le_succ hDepth) s
      unfold Expression.signedOperand
      split
      · exact prefixed hOperand .negate _
      · exact prefixed hOperand .keep _
      · exact prefixed hOperand .complement _
      · exact powered hOperand rounds _

end Curtails

/-- With enough budget for open operands, the text of a derivation is read to its end. -/
theorem levels_of_derivation {source : Text} {d : Derivation .or}
    (hSource : SpelledBy source d.tokens) {depth : Nat} (hDepth : d.depth ≤ depth) :
    ∃ gap, gap.all isGap = true ∧
      levels (enoughRounds source) (signedOperand (enoughRounds source) depth) source =
        .ok (d.tree, gap) := by
  have hRounds := hSource.length_le d.ne_nil_of_mem_tokens
  obtain ⟨body, gap, rfl, hSpells, hGap⟩ := hSource
  exact ⟨gap, hGap, (d.takes hDepth hRounds hSpells).1 gap (Level.stops_end hGap)⟩

/-- The grammar is not ambiguous. -/
theorem tree_unique {source : Text} {d d' : Derivation .or} (hSource : SpelledBy source d.tokens)
    (hSource' : SpelledBy source d'.tokens) : d.tree = d'.tree := by
  obtain ⟨gap, -, hRead⟩ := levels_of_derivation hSource (Nat.le_max_left d.depth d'.depth)
  obtain ⟨gap', -, hRead'⟩ := levels_of_derivation hSource' (Nat.le_max_right d.depth d'.depth)
  rw [hRead] at hRead'
  exact congrArg Prod.fst (Except.ok.inj hRead')

/-- A text of the grammar that nests too deeply is left for that reason, after parts of its tree. -/
theorem parse_of_derivation_or_tooDeep {source : Text} {d : Derivation .or}
    (hSource : SpelledBy source d.tokens) :
    parse source = .ok d.tree ∨ ∃ completed, parse source = .error ⟨completed, .tooDeep⟩ ∧
      ∀ part ∈ completed, part ∈ d.tree.subterms := by
  obtain ⟨body, last, hText, hSpells, hLast⟩ := id hSource
  obtain ⟨c, tail, hSkip, -⟩ := hSpells.exists_skipGaps last
  rw [← hText] at hSkip
  obtain ⟨gap, hGap, hRead⟩ := levels_of_derivation hSource (Nat.le_max_left d.depth depthLimit)
  have hLimit := Nat.le_max_right d.depth depthLimit
  have hOperand := Curtails.signedOperand (enoughRounds source) hLimit
  have hCurtails := Curtails.levels hOperand (enoughRounds source) source
  rw [hRead, ← levels_skipGaps, hSkip] at hCurtails
  unfold parse
  rw [hSkip]
  dsimp only
  rcases hCurtails with hSame | ⟨completed, hStuck, hParts⟩
  · rw [hSame]
    dsimp only
    rw [skipGaps_of_all hGap]
    exact .inl rfl
  · rw [hStuck]
    exact .inr ⟨completed, rfl, hParts d.tree gap rfl⟩

end TwoPass.Expression
