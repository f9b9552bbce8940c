import TwoPass.Proofs.Expression.Exact

namespace TwoPass.Expression

/-- Every part of the tree has a value over the integers, which is in the range of words. -/
def InRange (lookup : Text → Option UInt16) (e : Expression) : Prop :=
  ∀ part ∈ e.subterms, ∃ n, part.exact lookup = .ok n ∧ Fits n

/-- Some part of the tree is an operator at operands that it refuses. -/
def Refused (lookup : Text → Option UInt16) (e : Expression) : Prop :=
  ∃ op left right a b, binary op left right ∈ e.subterms ∧
    left.exact lookup = .ok a ∧ right.exact lookup = .ok b ∧ op.refuses a b = true

theorem natAbs_pow_le_one {base : Int} (hBase : base.natAbs ≤ 1) (n : Nat) :
    (base ^ n).natAbs ≤ 1 := by
  rw [Int.natAbs_pow]
  exact pow_le_one₀ (Nat.zero_le _) hBase

namespace BinaryOp

/-- Whatever an operator refuses is in range. -/
theorem exists_fits_of_refuses {op : BinaryOp} {a b : Int} (h : op.refuses a b = true) :
    ∃ n, op.exact a b = .ok n ∧ Fits n := by
  cases op with
  | shiftLeft =>
      rw [refuses, Bool.and_eq_true, beq_iff_eq, beq_iff_eq] at h
      obtain ⟨rfl, rfl⟩ := h
      exact ⟨-2 ^ 63, rfl, by decide⟩
  | floorMod =>
      rw [refuses, Bool.and_eq_true, beq_iff_eq, beq_iff_eq] at h
      obtain ⟨rfl, rfl⟩ := h
      exact ⟨0, rfl, by decide⟩
  | power =>
      rw [refuses, Bool.and_eq_true, decide_eq_true_eq, decide_eq_true_eq] at h
      refine ⟨a ^ b.toNat, by rw [BinaryOp.exact, if_neg (by omega)], ?_⟩
      have hSmall := natAbs_pow_le_one h.1 b.toNat
      unfold Fits
      omega
  | or | xor | and | shiftRight | add | sub | mul | floorDiv => cases h

/-- An operator whose exact result is in range returns it, or refuses. -/
theorem apply_of_fits {op : BinaryOp} {a b : Int64} {n : Int}
    (hExact : op.exact a.toInt b.toInt = .ok n) (hFits : Fits n) :
    op.apply a b =
      if op.refuses a.toInt b.toInt then .error .overflow else .ok (Int64.ofInt n) := by
  rw [apply_eq_exact, hExact, ok_bind, narrow_eq_ite, if_pos hFits]

end BinaryOp

section Parts

variable {lookup : Text → Option UInt16} {e part left right operand : Expression}

theorem InRange.of_mem (h : InRange lookup e) (hPart : part ∈ e.subterms) : InRange lookup part :=
  fun _ hInner => h _ (subterms_trans hInner hPart)

/-- What is refused in a part is refused in the whole. -/
theorem Refused.of_mem (h : Refused lookup part) (hPart : part ∈ e.subterms) :
    Refused lookup e := by
  obtain ⟨op, left, right, a, b, hMem, hOperands⟩ := h
  exact ⟨op, left, right, a, b, subterms_trans hMem hPart, hOperands⟩

theorem not_refused_literal (v : Int64) : ¬ Refused lookup (.literal v) := by
  rintro ⟨op, left, right, a, b, hMem, -⟩
  cases List.mem_singleton.mp hMem

theorem not_refused_name (n : Text) : ¬ Refused lookup (.name n) := by
  rintro ⟨op, left, right, a, b, hMem, -⟩
  cases List.mem_singleton.mp hMem

/-- No unary operator refuses anything. -/
theorem refused_unary_iff {op : UnaryOp} :
    Refused lookup (.unary op operand) ↔ Refused lookup operand := by
  constructor
  · rintro ⟨op', left, right, a, b, hMem, hOperands⟩
    rcases List.mem_cons.mp hMem with hSelf | hMem
    · cases hSelf
    · exact ⟨op', left, right, a, b, hMem, hOperands⟩
  · exact fun h => h.of_mem (operand_mem_subterms ..)

/-- A binary operator refuses, or something in its operands does. -/
theorem refused_binary_iff {op : BinaryOp} {a b : Int} (ha : left.exact lookup = .ok a)
    (hb : right.exact lookup = .ok b) :
    Refused lookup (.binary op left right) ↔
      Refused lookup left ∨ Refused lookup right ∨ op.refuses a b = true := by
  constructor
  · rintro ⟨op', left', right', a', b', hMem, ha', hb', hRefuses⟩
    rcases List.mem_cons.mp hMem with hSelf | hMem
    · cases hSelf
      cases ha.symm.trans ha'
      cases hb.symm.trans hb'
      exact .inr (.inr hRefuses)
    · rcases List.mem_append.mp hMem with hMem | hMem
      · exact .inl ⟨op', left', right', a', b', hMem, ha', hb', hRefuses⟩
      · exact .inr (.inl ⟨op', left', right', a', b', hMem, ha', hb', hRefuses⟩)
  · rintro (h | h | h)
    · exact h.of_mem (left_mem_subterms ..)
    · exact h.of_mem (right_mem_subterms ..)
    · exact ⟨op, left, right, a, b, self_mem_subterms _, ha, hb, h⟩

end Parts

/-- Within the range, a tree has a value unless some part of it is refused. -/
theorem value_of_inRange {lookup : Text → Option UInt16} {e : Expression}
    (hRange : InRange lookup e) :
    (Refused lookup e ∧ e.value lookup = .error .overflow) ∨
      (¬ Refused lookup e ∧ ∃ v, e.value lookup = .ok v) := by
  obtain ⟨n, hExact, hFits⟩ := hRange e (self_mem_subterms e)
  induction e generalizing n with
  | literal v => exact .inr ⟨not_refused_literal v, v, rfl⟩
  | name name =>
      refine .inr ⟨not_refused_name name, ?_⟩
      rw [exact] at hExact
      rw [value]
      cases hFound : lookup name with
      | none =>
          rw [hFound] at hExact
          cases hExact
      | some w => exact ⟨_, rfl⟩
  | unary op operand ih =>
      have hOperand := hRange.of_mem (operand_mem_subterms op operand)
      obtain ⟨a, ha, hFitsOperand⟩ := hOperand operand (self_mem_subterms operand)
      rw [exact, ha] at hExact
      cases hExact
      rw [refused_unary_iff, value]
      rcases ih hOperand a ha hFitsOperand with ⟨hRefused, hValue⟩ | ⟨hRefused, v, hValue⟩
      · rw [hValue]
        exact .inl ⟨hRefused, rfl⟩
      · cases ha.symm.trans (exact_of_value hValue)
        obtain ⟨w, hResult, -⟩ := exists_narrow_eq_ok hFits
        rw [hValue, ok_bind, op.apply_eq_narrow]
        exact .inr ⟨hRefused, w, hResult⟩
  | binary op left right ihLeft ihRight =>
      have hLeft := hRange.of_mem (left_mem_subterms op left right)
      have hRight := hRange.of_mem (right_mem_subterms op left right)
      obtain ⟨a, ha, hFitsLeft⟩ := hLeft left (self_mem_subterms left)
      obtain ⟨b, hb, hFitsRight⟩ := hRight right (self_mem_subterms right)
      rw [exact, ha, ok_bind, hb, ok_bind] at hExact
      rw [refused_binary_iff ha hb, value]
      rcases ihLeft hLeft a ha hFitsLeft with
        ⟨hRefused, hValue⟩ | ⟨hRefusedLeft, v, hValueLeft⟩
      · rw [hValue]
        exact .inl ⟨.inl hRefused, rfl⟩
      rcases ihRight hRight b hb hFitsRight with
        ⟨hRefused, hValue⟩ | ⟨hRefusedRight, w, hValueRight⟩
      · rw [hValueLeft, hValue]
        exact .inl ⟨.inr (.inl hRefused), rfl⟩
      cases ha.symm.trans (exact_of_value hValueLeft)
      cases hb.symm.trans (exact_of_value hValueRight)
      rw [hValueLeft, ok_bind, hValueRight, ok_bind, BinaryOp.apply_of_fits hExact hFits]
      split
      · next hRefuses => exact .inl ⟨.inr (.inr hRefuses), rfl⟩
      · next hRefuses =>
          refine .inr ⟨?_, _, rfl⟩
          rintro (h | h | h)
          · exact hRefusedLeft h
          · exact hRefusedRight h
          · exact hRefuses h

/-- A text that can be read has the value of its tree. -/
theorem evaluate_of_parse {lookup : Text → Option UInt16} {source : Text} {e : Expression}
    (h : parse source = .ok e) : evaluate lookup source = e.value lookup := by
  unfold evaluate
  rw [h]

/-- Also a text that nests too deeply overflows only in a part that is refused. -/
theorem refused_of_evaluate {lookup : Text → Option UInt16} {source : Text} {d : Derivation .or}
    (hSource : SpelledBy source d.tokens) (hRange : InRange lookup d.tree)
    (h : evaluate lookup source = .error .overflow) : Refused lookup d.tree := by
  -- Whatever has been evaluated is a part of the tree, and so it is in range as well.
  have hPart : ∀ part ∈ d.tree.subterms, part.value lookup = .error .overflow →
      Refused lookup d.tree := by
    intro part hPart hValue
    rcases value_of_inRange (hRange.of_mem hPart) with ⟨hRefused, -⟩ | ⟨-, v, hOk⟩
    · exact hRefused.of_mem hPart
    · rw [hOk] at hValue
      cases hValue
  rcases parse_of_derivation_or_tooDeep hSource with hParse | ⟨completed, hParse, hParts⟩
  · rw [evaluate_of_parse hParse] at h
    exact hPart d.tree (self_mem_subterms _) h
  · unfold evaluate at h
    rw [hParse] at h
    rcases bind_eq_error_iff.mp h with h | ⟨values, -, h⟩
    · obtain ⟨part, hMem, hValue⟩ := exists_of_mapM_eq_error h
      exact hPart part (hParts part hMem) hValue
    · cases h

/-- An operator whose exact result is in range returns it, unless it refuses, and it refuses nothing
else. Hence an expression all whose parts are in range overflows only where an operator refuses, and
every such place makes it overflow, if it does not nest too deeply. -/
theorem overflow_only_where_refused (lookup : Text → Option UInt16) :
    (∀ (op : BinaryOp) (a b : Int64) (n : Int), op.exact a.toInt b.toInt = .ok n → Fits n →
      op.apply a b =
        if op.refuses a.toInt b.toInt then .error .overflow else .ok (Int64.ofInt n)) ∧
    (∀ (op : BinaryOp) (a b : Int), op.refuses a b = true → ∃ n, op.exact a b = .ok n ∧ Fits n) ∧
    ∀ (source : Text) (d : Derivation .or), SpelledBy source d.tokens → InRange lookup d.tree →
      (evaluate lookup source = .error .overflow → Refused lookup d.tree) ∧
      (d.depth ≤ 200 → Refused lookup d.tree → evaluate lookup source = .error .overflow) ∧
      (d.depth ≤ 200 → ¬ Refused lookup d.tree →
        ∃ v, evaluate lookup source = .ok v ∧ d.tree.exact lookup = .ok v.toInt) := by
  refine ⟨fun _ _ _ _ => BinaryOp.apply_of_fits, fun _ _ _ => BinaryOp.exists_fits_of_refuses, ?_⟩
  intro source d hSource hRange
  refine ⟨refused_of_evaluate hSource hRange, fun hDepth hRefused => ?_, fun hDepth hRefused => ?_⟩
  · rw [evaluate_of_parse (parse_of_derivation hSource hDepth)]
    rcases value_of_inRange hRange with ⟨-, hValue⟩ | ⟨hNot, -⟩
    · exact hValue
    · exact absurd hRefused hNot
  · rw [evaluate_of_parse (parse_of_derivation hSource hDepth)]
    rcases value_of_inRange hRange with ⟨hYes, -⟩ | ⟨-, v, hValue⟩
    · exact absurd hYes hRefused
    · exact ⟨v, hValue, exact_of_value hValue⟩

/-- Minus one shifted by 63 bits is the least word, and yet it is reported as an overflow. -/
theorem overflow_only_where_refused_least_word :
    ∃ d : Derivation .or, SpelledBy "-1 << 63".toList d.tokens ∧
      d.tree.exact (fun _ => none) = .ok (-2 ^ 63) ∧ InRange (fun _ => none) d.tree ∧
      evaluate (fun _ => none) "-1 << 63".toList = .error .overflow ∧
      BinaryOp.shiftLeft.apply (-1) 62 = .ok (Int64.ofInt (-2 ^ 62)) := by
  have hParse : parse "-1 << 63".toList =
      .ok (.binary .shiftLeft (.unary .negate (.literal 1)) (.literal 63)) := by decide +kernel
  obtain ⟨d, hSource, hDepth, hTree⟩ := exists_derivation_of_parse hParse
  have hExact : d.tree.exact (fun _ => none) = .ok (-2 ^ 63) := by
    rw [hTree]
    rfl
  have hRange : InRange (fun _ => none) d.tree := by
    rw [hTree, InRange]
    simp only [subterms, List.cons_append, List.nil_append, List.forall_mem_cons]
    exact ⟨⟨-2 ^ 63, rfl, by decide⟩, ⟨-1, rfl, by decide⟩, ⟨1, rfl, by decide⟩,
      ⟨63, rfl, by decide⟩, fun _ hNone => by cases hNone⟩
  have hRefused : Refused (fun _ => none) d.tree := by
    rw [hTree]
    exact ⟨.shiftLeft, _, _, -1, 63, self_mem_subterms _, rfl, rfl, by decide⟩
  obtain ⟨hOperators, -, hTexts⟩ := overflow_only_where_refused fun _ => none
  exact ⟨d, hSource, hExact, hRange, (hTexts _ d hSource hRange).2.1 hDepth hRefused,
    hOperators .shiftLeft (-1) 62 (-2 ^ 62) rfl (by decide)⟩

end TwoPass.Expression
