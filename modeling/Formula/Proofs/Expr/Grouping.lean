import Formula.Expr

/-! How operators group in a tree. A tree in which precedence and associativity decide what groups with
what is determined by its operands and operators in order. -/

namespace Formula

namespace BinaryOp

/-- Whether an operand of `op` on the left may have `inner` at its root. -/
def TakesLeft (op inner : BinaryOp) : Prop :=
  op.precedence < inner.precedence ∨
    op.precedence = inner.precedence ∧ op.isRightAssoc = false

def TakesRight (op inner : BinaryOp) : Prop :=
  op.precedence < inner.precedence ∨
    op.precedence = inner.precedence ∧ op.isRightAssoc = true

theorem TakesLeft.precedence_le {op inner : BinaryOp} (h : op.TakesLeft inner) :
    op.precedence ≤ inner.precedence := h.elim Nat.le_of_lt fun h => Nat.le_of_eq h.1

theorem TakesRight.precedence_le {op inner : BinaryOp} (h : op.TakesRight inner) :
    op.precedence ≤ inner.precedence := h.elim Nat.le_of_lt fun h => Nat.le_of_eq h.1

theorem isRightAssoc_iff (op : BinaryOp) : op.isRightAssoc = true ↔ op = power := by
  cases op <;> simp [isRightAssoc]

theorem precedence_eq_iff (op : BinaryOp) : op.precedence = 200 ↔ op = power := by
  cases op <;> simp [precedence]

theorem isRightAssoc_eq {op inner : BinaryOp} (h : op.precedence = inner.precedence) :
    op.isRightAssoc = inner.isRightAssoc := by
  rw [Bool.eq_iff_iff, isRightAssoc_iff, isRightAssoc_iff, ← precedence_eq_iff,
    ← precedence_eq_iff, h]

theorem takesLeft_of_lt_rightPrecedence {op inner : BinaryOp}
    (h : op.precedence < inner.rightPrecedence) : op.TakesLeft inner := by
  unfold rightPrecedence at h
  split at h
  · exact .inl h
  · rename_i hassoc
    rcases Nat.lt_or_eq_of_le (Nat.lt_succ_iff.mp h) with hlt | heq
    · exact .inl hlt
    · exact .inr ⟨heq, by rw [isRightAssoc_eq heq]; simpa using hassoc⟩

theorem takesRight_of_rightPrecedence_le {op inner : BinaryOp}
    (h : op.rightPrecedence ≤ inner.precedence) : op.TakesRight inner := by
  unfold rightPrecedence at h
  split at h
  · rename_i hassoc
    exact (Nat.lt_or_eq_of_le h).imp id fun heq => ⟨heq, hassoc⟩
  · exact .inl h

end BinaryOp

namespace Expr

/-- The operands and operators of a tree from left to right. -/
def inOrder : Expr → List (Expr ⊕ BinaryOp)
  | binary op left right => left.inOrder ++ .inr op :: right.inOrder
  | e => [.inl e]

def rootOp? : Expr → Option BinaryOp
  | binary op _ _ => some op
  | _ => none

/-- Each operand of an operator may stand there without parentheses. -/
def IsGrouped : Expr → Prop
  | binary op left right =>
    (∀ inner ∈ left.rootOp?, op.TakesLeft inner) ∧ (∀ inner ∈ right.rootOp?, op.TakesRight inner) ∧
      left.IsGrouped ∧ right.IsGrouped
  | _ => True

variable {op inner : BinaryOp} {left right e e' : Expr}

theorem inOrder_of_rootOp?_eq_none (h : e.rootOp? = none) : e.inOrder = [.inl e] := by
  cases e with
  | binary => cases h
  | _ => rfl

theorem isGrouped_of_rootOp?_eq_none (h : e.rootOp? = none) : e.IsGrouped := by
  cases e with
  | binary => cases h
  | _ => trivial

theorem inOrder_length_pos (e : Expr) : 0 < e.inOrder.length := by
  cases e <;> simp only [inOrder, List.length_append, List.length_cons, List.length_nil] <;> omega

/-- At the root stands an operator that binds least. -/
theorem precedence_le_of_mem_inOrder (hroot : e.rootOp? = some op) (h : e.IsGrouped)
    (hmem : .inr inner ∈ e.inOrder) : op.precedence ≤ inner.precedence := by
  -- An operand that holds an operator at all has one at its root.
  have below {e' : Expr} (ih : ∀ {op}, e'.rootOp? = some op → e'.IsGrouped →
      .inr inner ∈ e'.inOrder → op.precedence ≤ inner.precedence) (hgrouped : e'.IsGrouped)
      (hmem : .inr inner ∈ e'.inOrder) :
      ∃ root, e'.rootOp? = some root ∧ root.precedence ≤ inner.precedence := by
    cases hr : e'.rootOp? with
    | none => simp [inOrder_of_rootOp?_eq_none hr] at hmem
    | some root => exact ⟨root, rfl, ih hr hgrouped hmem⟩
  induction e using inOrder.induct generalizing op with
  | case1 root left right ihl ihr =>
    obtain rfl : root = op := by simpa [rootOp?] using hroot
    obtain ⟨hleft, hright, hl, hr⟩ := h
    simp only [inOrder, List.mem_append, List.mem_cons, Sum.inr.injEq] at hmem
    rcases hmem with hmem | rfl | hmem
    · obtain ⟨next, hnext, hle⟩ := below ihl hl hmem
      have := (hleft next hnext).precedence_le
      omega
    · exact Nat.le_refl _
    · obtain ⟨next, hnext, hle⟩ := below ihr hr hmem
      have := (hright next hnext).precedence_le
      omega
  | case2 e he =>
    cases e <;> simp [rootOp?] at hroot
    exact (he _ _ _ rfl).elim

theorem takesLeft_of_mem_inOrder (h : (binary op left right).IsGrouped)
    (hmem : .inr inner ∈ left.inOrder) : op.TakesLeft inner := by
  obtain ⟨hleft, -, hl, -⟩ := h
  cases hr : left.rootOp? with
  | none => simp [inOrder_of_rootOp?_eq_none hr] at hmem
  | some root =>
    have hle := precedence_le_of_mem_inOrder hr hl hmem
    rcases hleft root hr with hlt | ⟨heq, hassoc⟩
    · exact .inl (Nat.lt_of_lt_of_le hlt hle)
    · exact (Nat.lt_or_eq_of_le (heq ▸ hle)).imp id fun h => ⟨h, hassoc⟩

theorem takesRight_of_mem_inOrder (h : (binary op left right).IsGrouped)
    (hmem : .inr inner ∈ right.inOrder) : op.TakesRight inner := by
  obtain ⟨-, hright, -, hr⟩ := h
  cases hroot : right.rootOp? with
  | none => simp [inOrder_of_rootOp?_eq_none hroot] at hmem
  | some root =>
    have hle := precedence_le_of_mem_inOrder hroot hr hmem
    rcases hright root hroot with hlt | ⟨heq, hassoc⟩
    · exact .inl (Nat.lt_of_lt_of_le hlt hle)
    · exact (Nat.lt_or_eq_of_le (heq ▸ hle)).imp id fun h => ⟨h, hassoc⟩

/-- Of two operators at most one can be above the other. -/
theorem not_takesLeft_and_takesRight : ¬(op.TakesLeft inner ∧ inner.TakesRight op) := by
  rintro ⟨hlt | ⟨heq, hleft⟩, hlt' | ⟨heq', hright⟩⟩
  · omega
  · omega
  · omega
  · rw [BinaryOp.isRightAssoc_eq heq, hright] at hleft
    exact absurd hleft (by simp)

theorem not_inside {op' : BinaryOp} {left' right' : Expr} (h : (binary op left right).IsGrouped)
    (h' : (binary op' left' right').IsGrouped) {mid : List (Expr ⊕ BinaryOp)}
    (hl : left'.inOrder = left.inOrder ++ .inr op :: mid)
    (hr : right.inOrder = mid ++ .inr op' :: right'.inOrder) : False := by
  have hop : .inr op ∈ left'.inOrder := by simp [hl]
  have hop' : .inr op' ∈ right.inOrder := by simp [hr]
  exact not_takesLeft_and_takesRight
    ⟨takesLeft_of_mem_inOrder h' hop, takesRight_of_mem_inOrder h hop'⟩

/-- Two grouped trees that read the same have their roots in the same place. -/
theorem parts_eq_of_inOrder_eq {op' : BinaryOp} {left' right' : Expr}
    (h : (binary op left right).IsGrouped) (h' : (binary op' left' right').IsGrouped)
    (heq : (binary op left right).inOrder = (binary op' left' right').inOrder) :
    left.inOrder = left'.inOrder ∧ op = op' ∧ right.inOrder = right'.inOrder := by
  simp only [inOrder] at heq
  rcases List.append_eq_append_iff.mp heq with ⟨mid, hl, hr⟩ | ⟨mid, hl, hr⟩
  · cases mid with
    | nil =>
      obtain ⟨hop, hr⟩ := List.cons.inj hr
      exact ⟨by simpa using hl.symm, Sum.inr.inj hop, hr⟩
    | cons m mid =>
      obtain ⟨rfl, hright⟩ := List.cons.inj hr
      exact (not_inside h h' hl hright).elim
  · cases mid with
    | nil =>
      obtain ⟨hop, hr⟩ := List.cons.inj hr
      exact ⟨by simpa using hl, (Sum.inr.inj hop).symm, hr.symm⟩
    | cons m mid =>
      obtain ⟨rfl, hright⟩ := List.cons.inj hr
      exact (not_inside h' h hl hright).elim

/-- The order of operands and operators determines a tree that is grouped. -/
theorem eq_of_inOrder_eq (h : e.IsGrouped) (h' : e'.IsGrouped) (heq : e.inOrder = e'.inOrder) :
    e = e' := by
  -- An operand on its own is the only tree that reads like it.
  have lone : ∀ {e e' : Expr}, e.rootOp? = none → e.inOrder = e'.inOrder → e = e' := by
    intro e e' hroot heq
    rw [inOrder_of_rootOp?_eq_none hroot] at heq
    cases hroot' : e'.rootOp? with
    | none => simpa [inOrder_of_rootOp?_eq_none hroot'] using heq
    | some op =>
      cases e' <;> simp only [rootOp?, reduceCtorEq] at hroot'
      rename_i left right
      have hlen := congrArg List.length heq
      have := left.inOrder_length_pos
      have := right.inOrder_length_pos
      simp only [inOrder, List.length_append, List.length_cons, List.length_nil] at hlen
      omega
  -- Once the roots are in the same place, the operands are the same by induction.
  induction e using inOrder.induct generalizing e' with
  | case1 op left right ihl ihr =>
    cases hroot' : e'.rootOp? with
    | none => exact (lone hroot' heq.symm).symm
    | some op' =>
      cases e' <;> simp only [rootOp?, reduceCtorEq] at hroot'
      obtain ⟨hleft, rfl, hright⟩ := parts_eq_of_inOrder_eq h h' heq
      rw [ihl h.2.2.1 h'.2.2.1 hleft, ihr h.2.2.2 h'.2.2.2 hright]
  | case2 e he =>
    refine lone ?_ heq
    cases e <;> first | rfl | exact (he _ _ _ rfl).elim

end Expr
end Formula
