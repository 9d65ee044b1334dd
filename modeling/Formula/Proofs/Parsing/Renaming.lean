import Formula.Proofs.Expr.Nodes
import Formula.Proofs.Parsing.Declarations

/-! What aliases do to a parse: without them it comes to the same tree, whose variables stand there as
they are spelled, and the same errors. -/

namespace Formula

namespace Expr

mutual

/-- The tree with other names for its variables. -/
def renamed (f : String → String) : Expr → Expr
  | e@(const _ _) | e@(coalescedName _) => e
  | name n => name (f n)
  | unary op operand => unary op (operand.renamed f)
  | binary op left right => binary op (left.renamed f) (right.renamed f)
  | conditional condition yes no => conditional (condition.renamed f) (yes.renamed f) (no.renamed f)
  | coalesce left fallback => coalesce (left.renamed f) (fallback.renamed f)
  | access kind nullSafe object key arguments =>
    access kind nullSafe (object.renamed f) (key.renamed f) (renamedAll f arguments)
  | list items => list (renamedAll f items)
  | hash entries => hash (renamedEntries f entries)
  | call function arguments => call function (renamedAll f arguments)

def renamedAll (f : String → String) : List Expr → List Expr
  | [] => []
  | e :: es => e.renamed f :: renamedAll f es

def renamedEntries (f : String → String) : List (Expr × Expr) → List (Expr × Expr)
  | [] => []
  | (key, value) :: entries => (key.renamed f, value.renamed f) :: renamedEntries f entries

end

section

variable (f g : String → String)

mutual

/-- Two renamings of a tree are the same exactly if they agree on its variables. -/
theorem renamed_eq_iff : ∀ e : Expr,
    e.renamed f = e.renamed g ↔ ∀ n, name n ∈ e.nodes → f n = g n
  | .const _ _ | .coalescedName _ | .name _ => by simp [renamed, nodes]
  | .unary _ e => by simp [renamed, nodes, renamed_eq_iff e]
  | .binary _ l r => by
    simp [renamed, nodes, renamed_eq_iff l, renamed_eq_iff r, or_imp, forall_and]
  | .conditional c y n => by
    simp [renamed, nodes, renamed_eq_iff c, renamed_eq_iff y, renamed_eq_iff n, or_imp, forall_and]
  | .coalesce l r => by
    simp [renamed, nodes, renamed_eq_iff l, renamed_eq_iff r, or_imp, forall_and]
  | .access _ _ o k as => by
    simp [renamed, nodes, renamed_eq_iff o, renamed_eq_iff k, renamedAll_eq_iff as, or_imp, forall_and]
  | .list es => by simp [renamed, nodes, renamedAll_eq_iff es]
  | .hash es => by simp [renamed, nodes, renamedEntries_eq_iff es]
  | .call _ as => by simp [renamed, nodes, renamedAll_eq_iff as]

theorem renamedAll_eq_iff : ∀ es : List Expr,
    renamedAll f es = renamedAll g es ↔ ∀ n, name n ∈ nodesOf es → f n = g n
  | [] => by simp [renamedAll, nodesOf]
  | e :: es => by
    simp [renamedAll, nodesOf, renamed_eq_iff e, renamedAll_eq_iff es, or_imp, forall_and]

theorem renamedEntries_eq_iff : ∀ es : List (Expr × Expr),
    renamedEntries f es = renamedEntries g es ↔ ∀ n, name n ∈ nodesOfEntries es → f n = g n
  | [] => by simp [renamedEntries, nodesOfEntries]
  | (k, v) :: es => by
    simp [renamedEntries, nodesOfEntries, renamed_eq_iff k, renamed_eq_iff v,
      renamedEntries_eq_iff es, or_imp, forall_and, and_assoc]

end

theorem renamedAll_of_forall₂ {es es' : List Expr}
    (h : List.Forall₂ (fun e e' => e' = e.renamed f) es es') : es' = renamedAll f es := by
  induction h with
  | nil => rw [renamedAll]
  | cons he _ ih => rw [renamedAll, he, ih]

theorem renamedEntries_of_entriesRelated {es es' : List (Expr × Expr)}
    (h : EntriesRelated (fun e e' => e' = e.renamed f) es es') : es' = renamedEntries f es := by
  induction h with
  | nil => rw [renamedEntries]
  | @cons p p' _ _ hp _ ih =>
    obtain ⟨key, value⟩ := p
    rw [renamedEntries, ← ih, ← hp.1, ← hp.2]

theorem isCongruence_renamed : IsCongruence fun e e' => e' = e.renamed f where
  const _ _ := by rw [renamed]
  unary _ _ _ he := by rw [renamed, he]
  binary _ _ _ _ _ hl hr := by rw [renamed, hl, hr]
  conditional hc hy hn := by rw [renamed, hc, hy, hn]
  coalesce hl hf := by rw [renamed, hl, hf]
  access _ _ _ _ _ _ _ _ ho hk has := by rw [renamed, ho, hk, renamedAll_of_forall₂ f has]
  list hes := by rw [renamed, renamedAll_of_forall₂ f hes]
  hash hes := by rw [renamed, renamedEntries_of_entriesRelated f hes]
  call _ _ _ has := by rw [renamed, renamedAll_of_forall₂ f has]

end

end Expr

namespace Scope

/-- The scope with every spelling declared as a variable of that name. -/
def unaliased (scope : Scope) : Scope := { scope with aliases := [] }

theorem key_unaliased (scope : Scope) (name : String) : scope.unaliased.key name = name := rfl

theorem unaliased_ofVariables (functions : List String) (declared : List Variable)
    (leniency : Leniency) :
    (ofVariables functions (some declared) leniency).unaliased =
      ofVariables functions (some ((spellingsOf declared).map .plain)) leniency := by
  simp only [unaliased, ofVariables, spellingsOf_map_plain, aliasesOf_map_plain]

end Scope

namespace Parsing

theorem simulatesScope_unaliased (scope : Scope) : SimulatesScope Eq (fun _ => False)
    (fun e e' => e' = e.renamed scope.key) scope.unaliased scope where
  variableNamed name cursor := by
    refine .ite (simulates_pure ?_) (.bind_same Eq.refl _ fun _ => .ite (simulates_pure ?_) ?_)
    · rw [Expr.renamed, Scope.key_unaliased]
    · rw [Expr.renamed]
    · exact .bind_same Eq.refl _ fun _ _ => .error rfl
  callOf name cursor hsub := by
    refine .ite ?_ (.bind_same Eq.refl _ fun _ _ => .error rfl)
    refine (simulates_arguments Eq.refl hsub).bind fun as as' has => simulates_pure ?_
    exact (Expr.isCongruence_renamed scope.key).call name has

/-- A parse with aliases is one without them, and then a renaming of the variables. -/
theorem parseTokens_eq_map_renamed (scope : Scope) (stream : TokenStream) :
    parseTokens scope stream = (parseTokens scope.unaliased stream).map (Expr.renamed scope.key) := by
  have hmatches := simulates_whole Eq.refl (Expr.isCongruence_renamed scope.key)
    (simulatesScope_unaliased scope) { stream }
  rw [parseTokens_run, parseTokens_run]
  generalize whole scope.unaliased { stream } = r at hmatches ⊢
  generalize whole scope { stream } = r' at hmatches ⊢
  cases hmatches with
  | ok htree => rw [htree, Except.map]
  | error he => rw [he, Except.map]
  | silent hfalse => exact hfalse.elim

theorem parseText_eq_map_renamed (scope : Scope) (text : String) :
    parseText scope text = (parseText scope.unaliased text).map (Expr.renamed scope.key) := by
  unfold parseText
  cases tokenize text with
  | error e => rfl
  | ok stream => exact parseTokens_eq_map_renamed scope stream

section

variable {declared declared' : List Variable} (hperm : declared.Perm declared')
  (functions : List String) (leniency : Leniency)
include hperm

/-- Without aliases the order of the variables does not matter. -/
theorem parseText_unaliased_perm (text : String) :
    (∃ tree, parseText (Scope.ofVariables functions declared leniency).unaliased text = .ok tree ∧
      parseText (Scope.ofVariables functions declared' leniency).unaliased text = .ok tree) ∨
    ∃ e e', parseText (Scope.ofVariables functions declared leniency).unaliased text = .error e ∧
      parseText (Scope.ofVariables functions declared' leniency).unaliased text = .error e' ∧
      e.Reordered e' := by
  have hplain := (Scope.perm_spellingsOf hperm).map Variable.plain
  have hunambiguous (names : List String) : Variable.Unambiguous (names.map .plain) := by
    intro key key' name hmem
    simp at hmem
  rw [Scope.unaliased_ofVariables, Scope.unaliased_ofVariables]
  unfold parseText
  cases tokenize text with
  | error e => exact .inr ⟨e, e, rfl, rfl, .refl e⟩
  | ok stream => exact parseTokens_perm hplain (hunambiguous _) functions leniency stream

end

end Parsing
end Formula
