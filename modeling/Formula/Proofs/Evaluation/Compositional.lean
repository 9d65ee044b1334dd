import Formula.Proofs.Evaluation.Trace

/-! Properties of evaluations that are put together from the properties of their steps. A property may
depend on a number, to which each call in the tree adds one. -/

namespace Formula

/-- A result that does not say that a function is undefined. -/
def IsFounded {α : Type} (r : Except EvalError α) : Prop := ∀ name, r ≠ .error (.undefinedFunction name)

theorem isFounded_ok {α : Type} (a : α) : IsFounded (.ok a : Except EvalError α) := nofun

theorem IsFounded.map {α β : Type} {r : Except EvalError α} (h : IsFounded r) (f : α → β) :
    IsFounded (r.map f) := by
  cases r with
  | ok a => exact isFounded_ok _
  | error e =>
    intro name heq
    exact h name (congrArg Except.error (Except.error.inj heq))

namespace Operation

theorem isFounded_arithmetic (op : BinaryOp) (l r : Value) : IsFounded (arithmetic op l r) := by
  unfold arithmetic
  split
  · split <;> exact isFounded_ok _
  · split
    · exact isFounded_ok _
    · exact nofun

theorem isFounded_contains (op : BinaryOp) (l r : Value) : IsFounded (contains op l r) := by
  unfold contains
  split
  · exact isFounded_ok _
  · exact nofun

theorem isFounded_matching (l r : Value) : IsFounded (matching l r) := by
  unfold matching
  split
  · exact isFounded_ok _
  · split
    · split
      · exact isFounded_ok _
      · exact nofun
    · exact nofun

theorem isFounded_range (l r : Value) : IsFounded (range l r) := by
  unfold range
  split
  · dsimp only
    split
    · exact nofun
    · exact isFounded_ok _
  · exact nofun

theorem isFounded_unary (op : UnaryOp) (v : Value) : IsFounded (unary op v) := by
  cases op with
  | not | bang => exact isFounded_ok _
  | negate =>
    unfold unary
    dsimp only
    split
    · split <;> exact isFounded_ok _
    · exact isFounded_ok _
    · exact nofun
  | plus =>
    unfold unary
    dsimp only
    split
    · exact isFounded_ok _
    · exact nofun

theorem isFounded_binary (op : BinaryOp) (l r : Value) : IsFounded (binary op l r) := by
  cases op with
  | isIn | notIn => exact (isFounded_contains _ l r).map _
  | matching => exact (isFounded_matching l r).map _
  | range => exact isFounded_range l r
  | add =>
    unfold binary
    dsimp only
    split
    · exact isFounded_ok _
    · exact isFounded_arithmetic _ l r
  | subtract | multiply | divide | modulo | power => exact isFounded_arithmetic _ l r
  | _ => exact isFounded_ok _

end Operation

namespace Evaluation

theorem isFounded_property (soft : Bool) (object : Value) (name : String) :
    IsFounded (property soft object name) := by
  unfold property
  split
  · exact isFounded_ok _
  · exact isFounded_ok _
  · split
    · exact isFounded_ok _
    · exact nofun

theorem isFounded_item (soft : Bool) (object key : Value) : IsFounded (item soft object key) := by
  unfold item
  split
  · exact isFounded_ok _
  · exact isFounded_ok _
  · split
    · exact isFounded_ok _
    · exact nofun

theorem isFounded_methodOf (soft : Bool) (object : Value) (name : String) :
    IsFounded (methodOf soft object name) := by
  unfold methodOf
  split
  · split
    · exact isFounded_ok _
    · exact nofun
    · exact nofun
  · split
    · exact isFounded_ok _
    · exact nofun

/-- A property that evaluations have if their steps do. What comes of variables and of functions
that are not registered is left to `Admits`. -/
structure IsCompositional (env : Env) (P : (α : Type) → Nat → Traced α → Prop) : Prop where
  mono {α m n x} : m ≤ n → P α m x → P α n x
  bind {α β m n x} {f : α → Traced β} : P α m x → (∀ a, P β n (f a)) → P β (m + n) (x >>= f)
  ofExcept {α r} : IsFounded r → P α 0 (.ofOutcome (.ofExcept r))
  call (function arguments) :
    P Value 1 (.noting (.call function arguments) (.call env.host function arguments))
  apply {name f} (arguments) : env.functions.get? name = some f →
    P Value 1 (.noting (.apply name arguments) (f.apply env.host env.context arguments))

/-- The property holds of the step at a node itself, if that is a variable or a function. -/
def Admits (env : Env) (P : (α : Type) → Nat → Traced α → Prop) : Expr → Prop
  | .name n => P Value 0 (.read env.context n)
  | .call n _ => env.functions.get? n = none → P Access 0 (.ofOutcome (.error (.undefinedFunction n)))
  | _ => True

namespace IsCompositional

variable {env : Env} {P : (α : Type) → Nat → Traced α → Prop} (h : IsCompositional env P) {α β : Type}
  {n : Nat}
include h

protected theorem pure (n : Nat) (a : α) : P α n (pure a) :=
  h.mono (Nat.zero_le n) (h.ofExcept (isFounded_ok a))

theorem map {x : Traced α} (hx : P α n x) (f : α → β) : P β n (do return f (← x)) :=
  h.bind hx fun a => h.pure 0 (f a)

theorem settle {x : Traced Access} (hx : P Access n x) : P Value n (settleTraced x) :=
  h.map hx Access.toValue

-- By induction on the tree. The cases follow the order of evaluation, and what is not reached, such
-- as the other branch of a choice, is given away by `mono`.
mutual

/-- What holds of the steps at the nodes of a tree holds of its evaluation. -/
theorem holds_trace (soft : Bool) : ∀ e : Expr, (∀ d ∈ e.nodes, Admits env P d) →
    P Access e.callCount (trace env soft e)
  | .const _ _, _ | .coalescedName _, _ => h.pure _ _
  | .name n, hnodes => h.map (hnodes (.name n) List.mem_cons_self) Access.value
  | .unary op e, hnodes => by
    obtain ⟨-, he⟩ := Expr.forall_mem_nodes_unary.mp hnodes
    rw [Expr.callCount_unary, trace]
    exact h.bind (h.settle (holds_trace false e he)) fun v =>
      h.map (h.ofExcept (Operation.isFounded_unary op v)) _
  | .binary op left right, hnodes => by
    obtain ⟨-, hl, hr⟩ := Expr.forall_mem_nodes_binary.mp hnodes
    rw [Expr.callCount_binary, trace]
    refine h.bind (h.settle (holds_trace false left hl)) fun l => ?_
    split
    · exact h.pure _ _
    · refine h.bind (n := 0) (h.settle (holds_trace false right hr)) fun r => ?_
      split
      · exact h.pure _ _
      · exact h.map (h.ofExcept (Operation.isFounded_binary op l r)) _
  | .conditional condition yes no, hnodes => by
    obtain ⟨-, hc, hy, hn⟩ := Expr.forall_mem_nodes_conditional.mp hnodes
    rw [Expr.callCount_conditional, trace]
    refine h.bind (h.settle (holds_trace false condition hc)) fun c => ?_
    split
    · exact h.mono (Nat.le_add_right _ _) (h.map (h.settle (holds_trace false yes hy)) _)
    · exact h.mono (Nat.le_add_left _ _) (h.map (h.settle (holds_trace false no hn)) _)
  | .coalesce left fallback, hnodes => by
    obtain ⟨-, hl, hf⟩ := Expr.forall_mem_nodes_coalesce.mp hnodes
    rw [Expr.callCount_coalesce, trace]
    refine h.bind (h.settle (holds_trace true left hl)) fun l => ?_
    split
    · exact h.map (h.settle (holds_trace false fallback hf)) _
    · exact h.pure _ _
  | .access kind nullSafe object key arguments, hnodes => by
    obtain ⟨-, ho, hk, has⟩ := Expr.forall_mem_nodes_access.mp hnodes
    rw [Expr.callCount_access, trace]
    refine h.bind (holds_trace soft object ho) fun a => ?_
    cases a with
    | shortCircuited => exact h.pure _ _
    | value o =>
      dsimp only
      by_cases hnull : (nullSafe && o.isNull) = true
      · rw [if_pos hnull]
        exact h.pure _ _
      rw [if_neg hnull]
      cases kind with
      | property =>
        exact h.mono (Nat.zero_le _) (h.map (h.ofExcept (isFounded_property _ _ _)) _)
      | method =>
        refine h.mono (Nat.le_add_left _ key.callCount) ?_
        rw [← Nat.zero_add (_ + _)]
        refine h.bind (h.ofExcept (isFounded_methodOf _ _ _)) fun f => ?_
        cases f with
        | none => exact h.pure _ _
        | some f =>
          exact h.bind (holds_traceAll arguments has) fun vs => h.map (h.call f vs) _
      | index =>
        refine h.mono (Nat.le_add_right _ _) ?_
        exact h.bind (h.settle (holds_trace false key hk)) fun k =>
          h.map (h.ofExcept (isFounded_item _ _ _)) _
  | .list es, hnodes => by
    obtain ⟨-, hes⟩ := Expr.forall_mem_nodes_list.mp hnodes
    rw [Expr.callCount_list, trace]
    exact h.map (holds_traceAll es hes) _
  | .hash entries, hnodes => by
    obtain ⟨-, hes⟩ := Expr.forall_mem_nodes_hash.mp hnodes
    rw [Expr.callCount_hash, trace]
    exact h.map (holds_traceEntries [] entries hes) _
  | .call name arguments, hnodes => by
    obtain ⟨hcall, has⟩ := Expr.forall_mem_nodes_call.mp hnodes
    rw [Expr.callCount_call, trace]
    cases hget : env.functions.get? name with
    | none => exact h.mono (Nat.zero_le _) (hcall hget)
    | some f => exact h.bind (holds_traceAll arguments has) fun vs => h.map (h.apply vs hget) _

theorem holds_traceAll : ∀ es : List Expr, (∀ d ∈ Expr.nodesOf es, Admits env P d) →
    P (List Value) (Expr.callsOf es) (traceAll env es)
  | [], _ => h.pure _ _
  | e :: es, hnodes => by
    obtain ⟨he, hes⟩ := Expr.forall_mem_nodesOf_cons.mp hnodes
    rw [traceAll]
    exact h.bind (h.settle (holds_trace false e he)) fun v => h.map (holds_traceAll es hes) _

theorem holds_traceEntries (fields : Dict Value) : ∀ entries : List (Expr × Expr),
    (∀ d ∈ Expr.nodesOfEntries entries, Admits env P d) →
    P (Dict Value) (Expr.callsOfEntries entries) (traceEntries env fields entries)
  | [], _ => h.pure _ _
  | (key, value) :: entries, hnodes => by
    obtain ⟨hk, hv, hes⟩ := Expr.forall_mem_nodesOfEntries_cons.mp hnodes
    rw [traceEntries]
    refine h.mono (Nat.le_of_eq (Nat.add_assoc _ _ _).symm) ?_
    exact h.bind (h.settle (holds_trace false key hk)) fun k =>
      h.bind (h.settle (holds_trace false value hv)) fun v => holds_traceEntries _ entries hes

end

end IsCompositional
end Evaluation

/-- The same of the value of a tree. -/
theorem Expr.trace_of_isCompositional {host : Host} {functions : Registry} {context : Context}
    {P : (α : Type) → Nat → Traced α → Prop} (h : Evaluation.IsCompositional ⟨host, functions, context⟩ P)
    {e : Expr} (hnodes : ∀ d ∈ e.nodes, Evaluation.Admits ⟨host, functions, context⟩ P d) :
    P Value e.callCount (e.trace host functions context) :=
  h.settle (h.holds_trace false e hnodes)

end Formula
