import Mathlib.Algebra.Ring.Nat
import Formula.Proofs.Parsing.Building

/-! The nodes of a tree, and how many of them are calls. -/

namespace Formula
namespace Expr

mutual

/-- A tree and all trees in it, each as often as it stands there. -/
def nodes : Expr → List Expr
  | e@(const _ _) | e@(name _) | e@(coalescedName _) => [e]
  | e@(unary _ operand) => e :: operand.nodes
  | e@(binary _ left right) => e :: (left.nodes ++ right.nodes)
  | e@(conditional condition yes no) => e :: (condition.nodes ++ (yes.nodes ++ no.nodes))
  | e@(coalesce left fallback) => e :: (left.nodes ++ fallback.nodes)
  | e@(access _ _ object key arguments) => e :: (object.nodes ++ (key.nodes ++ nodesOf arguments))
  | e@(list items) => e :: nodesOf items
  | e@(hash entries) => e :: nodesOfEntries entries
  | e@(call _ arguments) => e :: nodesOf arguments

def nodesOf : List Expr → List Expr
  | [] => []
  | e :: es => e.nodes ++ nodesOf es

def nodesOfEntries : List (Expr × Expr) → List Expr
  | [] => []
  | (key, value) :: entries => key.nodes ++ (value.nodes ++ nodesOfEntries entries)

end

theorem nodesOf_eq_flatMap (es : List Expr) : nodesOf es = es.flatMap nodes := by
  induction es with
  | nil => rw [nodesOf, List.flatMap_nil]
  | cons e es ih => rw [nodesOf, List.flatMap_cons, ih]

theorem nodesOfEntries_eq_flatMap (es : List (Expr × Expr)) :
    nodesOfEntries es = es.flatMap fun p => p.1.nodes ++ p.2.nodes := by
  induction es with
  | nil => rw [nodesOfEntries, List.flatMap_nil]
  | cons p es ih => rw [nodesOfEntries, List.flatMap_cons, ih, List.append_assoc]

section

variable {P : Expr → Prop} {e l r c y n f o k : Expr} {es : List Expr} {entries : List (Expr × Expr)}

theorem forall_mem_nodes_const {v : Value} {isIdentifier : Bool} :
    (∀ d ∈ (const v isIdentifier).nodes, P d) ↔ P (const v isIdentifier) :=
  List.forall_mem_singleton

theorem forall_mem_nodes_name {s : String} : (∀ d ∈ (name s).nodes, P d) ↔ P (name s) :=
  List.forall_mem_singleton

theorem forall_mem_nodes_coalescedName {s : String} :
    (∀ d ∈ (coalescedName s).nodes, P d) ↔ P (coalescedName s) :=
  List.forall_mem_singleton

theorem forall_mem_nodes_unary {op : UnaryOp} :
    (∀ d ∈ (unary op e).nodes, P d) ↔ P (unary op e) ∧ ∀ d ∈ e.nodes, P d :=
  List.forall_mem_cons

theorem forall_mem_nodes_binary {op : BinaryOp} : (∀ d ∈ (binary op l r).nodes, P d) ↔
    P (binary op l r) ∧ (∀ d ∈ l.nodes, P d) ∧ ∀ d ∈ r.nodes, P d :=
  List.forall_mem_cons.trans (and_congr_right' List.forall_mem_append)

theorem forall_mem_nodes_conditional : (∀ d ∈ (conditional c y n).nodes, P d) ↔
    P (conditional c y n) ∧ (∀ d ∈ c.nodes, P d) ∧ (∀ d ∈ y.nodes, P d) ∧ ∀ d ∈ n.nodes, P d :=
  List.forall_mem_cons.trans (and_congr_right' (List.forall_mem_append.trans
    (and_congr_right' List.forall_mem_append)))

theorem forall_mem_nodes_coalesce : (∀ d ∈ (coalesce l f).nodes, P d) ↔
    P (coalesce l f) ∧ (∀ d ∈ l.nodes, P d) ∧ ∀ d ∈ f.nodes, P d :=
  List.forall_mem_cons.trans (and_congr_right' List.forall_mem_append)

theorem forall_mem_nodes_access {kind : AccessKind} {nullSafe : Bool} :
    (∀ d ∈ (access kind nullSafe o k es).nodes, P d) ↔ P (access kind nullSafe o k es) ∧
      (∀ d ∈ o.nodes, P d) ∧ (∀ d ∈ k.nodes, P d) ∧ ∀ d ∈ nodesOf es, P d :=
  List.forall_mem_cons.trans (and_congr_right' (List.forall_mem_append.trans
    (and_congr_right' List.forall_mem_append)))

theorem forall_mem_nodes_list :
    (∀ d ∈ (list es).nodes, P d) ↔ P (list es) ∧ ∀ d ∈ nodesOf es, P d :=
  List.forall_mem_cons

theorem forall_mem_nodes_hash : (∀ d ∈ (hash entries).nodes, P d) ↔
    P (hash entries) ∧ ∀ d ∈ nodesOfEntries entries, P d :=
  List.forall_mem_cons

theorem forall_mem_nodes_call {s : String} :
    (∀ d ∈ (call s es).nodes, P d) ↔ P (call s es) ∧ ∀ d ∈ nodesOf es, P d :=
  List.forall_mem_cons

theorem forall_mem_nodesOf :
    (∀ d ∈ nodesOf es, P d) ↔ ∀ e ∈ es, ∀ d ∈ e.nodes, P d := by
  rw [nodesOf_eq_flatMap, List.forall_mem_flatMap]

theorem forall_mem_nodesOf_nil : ∀ d ∈ nodesOf [], P d := forall_mem_nodesOf.mpr nofun

theorem forall_mem_nodesOf_cons :
    (∀ d ∈ nodesOf (e :: es), P d) ↔ (∀ d ∈ e.nodes, P d) ∧ ∀ d ∈ nodesOf es, P d :=
  List.forall_mem_append

theorem forall_mem_nodesOfEntries : (∀ d ∈ nodesOfEntries entries, P d) ↔
    ∀ p ∈ entries, (∀ d ∈ p.1.nodes, P d) ∧ ∀ d ∈ p.2.nodes, P d := by
  simp only [nodesOfEntries_eq_flatMap, List.forall_mem_flatMap, List.forall_mem_append]

theorem forall_mem_nodesOfEntries_nil : ∀ d ∈ nodesOfEntries [], P d :=
  forall_mem_nodesOfEntries.mpr nofun

theorem forall_mem_nodesOfEntries_cons : (∀ d ∈ nodesOfEntries ((k, e) :: entries), P d) ↔
    (∀ d ∈ k.nodes, P d) ∧ (∀ d ∈ e.nodes, P d) ∧ ∀ d ∈ nodesOfEntries entries, P d :=
  List.forall_mem_append.trans (and_congr_right' List.forall_mem_append)

mutual

/-- What holds of all nodes of a tree holds of all nodes of each tree in it. -/
theorem forall_nodes_of_mem_nodes : ∀ e : Expr, (∀ d ∈ e.nodes, P d) →
    ∀ d ∈ e.nodes, ∀ d' ∈ d.nodes, P d'
  | .const _ _, h => forall_mem_nodes_const.mpr h
  | .name _, h => forall_mem_nodes_name.mpr h
  | .coalescedName _, h => forall_mem_nodes_coalescedName.mpr h
  | .unary op e, h => by
    obtain ⟨-, he⟩ := forall_mem_nodes_unary.mp h
    exact forall_mem_nodes_unary.mpr ⟨h, forall_nodes_of_mem_nodes e he⟩
  | .binary op left right, h => by
    obtain ⟨-, hl, hr⟩ := forall_mem_nodes_binary.mp h
    exact forall_mem_nodes_binary.mpr
      ⟨h, forall_nodes_of_mem_nodes left hl, forall_nodes_of_mem_nodes right hr⟩
  | .conditional condition yes no, h => by
    obtain ⟨-, hc, hy, hn⟩ := forall_mem_nodes_conditional.mp h
    exact forall_mem_nodes_conditional.mpr ⟨h, forall_nodes_of_mem_nodes condition hc,
      forall_nodes_of_mem_nodes yes hy, forall_nodes_of_mem_nodes no hn⟩
  | .coalesce left fallback, h => by
    obtain ⟨-, hl, hf⟩ := forall_mem_nodes_coalesce.mp h
    exact forall_mem_nodes_coalesce.mpr
      ⟨h, forall_nodes_of_mem_nodes left hl, forall_nodes_of_mem_nodes fallback hf⟩
  | .access kind nullSafe object key arguments, h => by
    obtain ⟨-, ho, hk, has⟩ := forall_mem_nodes_access.mp h
    exact forall_mem_nodes_access.mpr ⟨h, forall_nodes_of_mem_nodes object ho,
      forall_nodes_of_mem_nodes key hk, forall_nodes_of_mem_nodesOf arguments has⟩
  | .list items, h => by
    obtain ⟨-, hes⟩ := forall_mem_nodes_list.mp h
    exact forall_mem_nodes_list.mpr ⟨h, forall_nodes_of_mem_nodesOf items hes⟩
  | .hash entries, h => by
    obtain ⟨-, hes⟩ := forall_mem_nodes_hash.mp h
    exact forall_mem_nodes_hash.mpr ⟨h, forall_nodes_of_mem_nodesOfEntries entries hes⟩
  | .call function arguments, h => by
    obtain ⟨-, has⟩ := forall_mem_nodes_call.mp h
    exact forall_mem_nodes_call.mpr ⟨h, forall_nodes_of_mem_nodesOf arguments has⟩

theorem forall_nodes_of_mem_nodesOf : ∀ es : List Expr, (∀ d ∈ nodesOf es, P d) →
    ∀ d ∈ nodesOf es, ∀ d' ∈ d.nodes, P d'
  | [], _ => forall_mem_nodesOf_nil
  | e :: es, h => by
    obtain ⟨he, hes⟩ := forall_mem_nodesOf_cons.mp h
    exact forall_mem_nodesOf_cons.mpr
      ⟨forall_nodes_of_mem_nodes e he, forall_nodes_of_mem_nodesOf es hes⟩

theorem forall_nodes_of_mem_nodesOfEntries : ∀ entries : List (Expr × Expr),
    (∀ d ∈ nodesOfEntries entries, P d) → ∀ d ∈ nodesOfEntries entries, ∀ d' ∈ d.nodes, P d'
  | [], _ => forall_mem_nodesOfEntries_nil
  | (key, value) :: entries, h => by
    obtain ⟨hk, hv, hes⟩ := forall_mem_nodesOfEntries_cons.mp h
    exact forall_mem_nodesOfEntries_cons.mpr ⟨forall_nodes_of_mem_nodes key hk,
      forall_nodes_of_mem_nodes value hv, forall_nodes_of_mem_nodesOfEntries entries hes⟩

end

end

/-- The trees in a tree that a parse can build are such trees, or names of members. -/
theorem IsBuilt.of_mem_nodes {scope : Scope} {allowed : Content → Prop} {e : Expr}
    (h : e.IsBuilt scope allowed) :
    ∀ d ∈ e.nodes, d.IsBuilt scope allowed ∨ ∃ n, d = identifier n := by
  have hmember (n : String) : ∀ d ∈ (identifier n).nodes,
      d.IsBuilt scope allowed ∨ ∃ n, d = identifier n :=
    forall_mem_nodes_const.mpr (.inr ⟨n, rfl⟩)
  induction h with
  | literal hc hkind => exact forall_mem_nodes_const.mpr (.inl (.literal hc hkind))
  | constant hv => exact forall_mem_nodes_const.mpr (.inl (.constant hv))
  | name hc hkind hknown => exact forall_mem_nodes_name.mpr (.inl (.name hc hkind hknown))
  | coalescedName hc hkind hunknown =>
    exact forall_mem_nodes_coalescedName.mpr (.inl (.coalescedName hc hkind hunknown))
  | unary op he ih => exact forall_mem_nodes_unary.mpr ⟨.inl (.unary op he), ih⟩
  | binary op hl hr ihl ihr => exact forall_mem_nodes_binary.mpr ⟨.inl (.binary op hl hr), ihl, ihr⟩
  | conditional hc hy hn ihc ihy ihn =>
    exact forall_mem_nodes_conditional.mpr ⟨.inl (.conditional hc hy hn), ihc, ihy, ihn⟩
  | coalesce hl hr ihl ihr => exact forall_mem_nodes_coalesce.mpr ⟨.inl (.coalesce hl hr), ihl, ihr⟩
  | property nullSafe ho hc hn iho =>
    exact forall_mem_nodes_access.mpr
      ⟨.inl (.property nullSafe ho hc hn), iho, hmember _, forall_mem_nodesOf_nil⟩
  | method nullSafe ho hc hn has iho ihas =>
    exact forall_mem_nodes_access.mpr
      ⟨.inl (.method nullSafe ho hc hn has), iho, hmember _, forall_mem_nodesOf.mpr ihas⟩
  | index nullSafe ho hk iho ihk =>
    exact forall_mem_nodes_access.mpr
      ⟨.inl (.index nullSafe ho hk), iho, ihk, forall_mem_nodesOf_nil⟩
  | list hes ih => exact forall_mem_nodes_list.mpr ⟨.inl (.list hes), forall_mem_nodesOf.mpr ih⟩
  | hash hks hvs ihk ihv =>
    exact forall_mem_nodes_hash.mpr ⟨.inl (.hash hks hvs),
      forall_mem_nodesOfEntries.mpr fun p hp => ⟨ihk p hp, ihv p hp⟩⟩
  | call hc hkind hknown has ihas =>
    exact forall_mem_nodes_call.mpr ⟨.inl (.call hc hkind hknown has), forall_mem_nodesOf.mpr ihas⟩

/-- Whether a node calls a function or a method. -/
def isCall : Expr → Bool
  | call _ _ | access .method _ _ _ _ => true
  | _ => false

/-- How many calls stand in a tree. -/
def callCount (e : Expr) : Nat := e.nodes.countP isCall

def callsOf (es : List Expr) : Nat := (es.map callCount).sum

def callsOfEntries (es : List (Expr × Expr)) : Nat :=
  (es.map fun p => p.1.callCount + p.2.callCount).sum

theorem countP_nodesOf (es : List Expr) : (nodesOf es).countP isCall = callsOf es := by
  rw [nodesOf_eq_flatMap, List.countP_flatMap]
  rfl

theorem countP_nodesOfEntries (es : List (Expr × Expr)) :
    (nodesOfEntries es).countP isCall = callsOfEntries es := by
  rw [nodesOfEntries_eq_flatMap, List.countP_flatMap]
  simp only [Function.comp_def, List.countP_append]
  rfl

theorem callsOf_concat (es : List Expr) (e : Expr) :
    callsOf (es ++ [e]) = callsOf es + e.callCount := by
  simp [callsOf]

theorem callsOfEntries_concat (es : List (Expr × Expr)) (key value : Expr) :
    callsOfEntries (es ++ [(key, value)]) =
      callsOfEntries es + (key.callCount + value.callCount) := by
  simp [callsOfEntries]

section

variable (e l r c y n f o k : Expr) (es : List Expr)

@[simp] theorem callCount_const (v : Value) (isIdentifier : Bool) :
    (const v isIdentifier).callCount = 0 := rfl

@[simp] theorem callCount_identifier (name : String) : (identifier name).callCount = 0 := rfl

@[simp] theorem callCount_name (name : String) : (Expr.name name).callCount = 0 := rfl

@[simp] theorem callCount_coalescedName (name : String) : (coalescedName name).callCount = 0 := rfl

@[simp] theorem callCount_unary (op : UnaryOp) : (unary op e).callCount = e.callCount :=
  List.countP_cons_of_neg Bool.false_ne_true

@[simp] theorem callCount_binary (op : BinaryOp) :
    (binary op l r).callCount = l.callCount + r.callCount :=
  (List.countP_cons_of_neg Bool.false_ne_true).trans List.countP_append

@[simp] theorem callCount_conditional :
    (conditional c y n).callCount = c.callCount + (y.callCount + n.callCount) :=
  (List.countP_cons_of_neg Bool.false_ne_true).trans
    (List.countP_append.trans (congrArg _ List.countP_append))

@[simp] theorem callCount_coalesce : (coalesce l f).callCount = l.callCount + f.callCount :=
  (List.countP_cons_of_neg Bool.false_ne_true).trans List.countP_append

@[simp] theorem callCount_access (kind : AccessKind) (nullSafe : Bool) :
    (access kind nullSafe o k es).callCount =
      o.callCount + (k.callCount + (callsOf es + if kind = .method then 1 else 0)) := by
  unfold callCount
  rw [nodes, List.countP_cons, List.countP_append, List.countP_append, countP_nodesOf]
  cases kind <;> simp [isCall, Nat.add_assoc]

@[simp] theorem callCount_list : (list es).callCount = callsOf es :=
  (List.countP_cons_of_neg Bool.false_ne_true).trans (countP_nodesOf es)

@[simp] theorem callCount_hash (es : List (Expr × Expr)) :
    (hash es).callCount = callsOfEntries es :=
  (List.countP_cons_of_neg Bool.false_ne_true).trans (countP_nodesOfEntries es)

@[simp] theorem callCount_call (name : String) : (call name es).callCount = callsOf es + 1 :=
  (List.countP_cons_of_pos rfl).trans (congrArg (· + 1) (countP_nodesOf es))

end

end Expr
end Formula
