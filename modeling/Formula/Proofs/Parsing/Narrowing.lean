import Mathlib
import Formula.Proofs.Expr.Nodes
import Formula.Proofs.Parsing.Declarations
import Formula.Proofs.Parsing.Placement

/-! Of the names that are declared a parse only asks for those that stand in the text: whatever else is
declared, and in what order, the tree is the same. -/

namespace Formula

/-- Errors that agree, but that an unknown variable may be given other proposals. -/
structure SyntaxError.Resembles (e e' : SyntaxError) : Prop where
  fault : e.fault = e'.fault
  cursor : e.cursor = e'.cursor
  expression : e.expression = e'.expression
  subject : e.subject = e'.subject
  proposals : (∀ name, e.fault ≠ .unknownVariable name) → e.proposals = e'.proposals

namespace SyntaxError

variable {e e' e'' : SyntaxError}

theorem Resembles.refl (e : SyntaxError) : e.Resembles e := ⟨rfl, rfl, rfl, rfl, fun _ => rfl⟩

theorem Resembles.symm (h : e.Resembles e') : e'.Resembles e :=
  ⟨h.fault.symm, h.cursor.symm, h.expression.symm, h.subject.symm,
    fun hfault => (h.proposals (h.fault ▸ hfault)).symm⟩

theorem Resembles.trans (h : e.Resembles e') (h' : e'.Resembles e'') : e.Resembles e'' :=
  ⟨h.fault.trans h'.fault, h.cursor.trans h'.cursor, h.expression.trans h'.expression,
    h.subject.trans h'.subject,
    fun hfault => (h.proposals hfault).trans (h'.proposals (h.fault ▸ hfault))⟩

end SyntaxError

/-- A name stands among the tokens. -/
def TokenStream.Names (stream : TokenStream) (name : String) : Prop :=
  ∃ t ∈ stream.tokens, t.kind = .name ∧ t.text?.getD "" = name

namespace Expr

/-- What a node says of the variable that it is, if it is one. -/
def NamesOnly (N : String → Prop) : Expr → Prop
  | name n | coalescedName n => N n
  | _ => True

section

variable {R : Expr → Expr → Prop} {P : Expr → Prop}

theorem forall₂_of_guarded {es es' : List Expr}
    (h : List.Forall₂ (fun e e' => (∀ d ∈ e.nodes, P d) → R e e') es es')
    (hes : ∀ d ∈ nodesOf es, P d) : List.Forall₂ R es es' := by
  induction h with
  | nil => exact .nil
  | cons he _ ih =>
    obtain ⟨hhead, htail⟩ := forall_mem_nodesOf_cons.mp hes
    exact .cons (he hhead) (ih htail)

theorem entriesRelated_of_guarded {es es' : List (Expr × Expr)}
    (h : EntriesRelated (fun e e' => (∀ d ∈ e.nodes, P d) → R e e') es es')
    (hes : ∀ d ∈ nodesOfEntries es, P d) : EntriesRelated R es es' := by
  induction h with
  | nil => exact .nil
  | @cons p p' _ _ hp _ ih =>
    obtain ⟨key, value⟩ := p
    obtain ⟨hkey, hvalue, htail⟩ := forall_mem_nodesOfEntries_cons.mp hes
    exact .cons ⟨hp.1 hkey, hp.2 hvalue⟩ (ih htail)

/-- Trees may be compared under a condition on their nodes. -/
theorem IsCongruence.guarded (hR : IsCongruence R) (P : Expr → Prop) :
    IsCongruence fun e e' => (∀ d ∈ e.nodes, P d) → R e e' where
  const value isIdentifier _ := hR.const value isIdentifier
  unary op e e' he h := by
    obtain ⟨-, he'⟩ := forall_mem_nodes_unary.mp h
    exact hR.unary op (he he')
  binary op l l' r r' hl hr h := by
    obtain ⟨-, hl', hr'⟩ := forall_mem_nodes_binary.mp h
    exact hR.binary op (hl hl') (hr hr')
  conditional hc hy hn h := by
    obtain ⟨-, hc', hy', hn'⟩ := forall_mem_nodes_conditional.mp h
    exact hR.conditional (hc hc') (hy hy') (hn hn')
  coalesce hl hf h := by
    obtain ⟨-, hl', hf'⟩ := forall_mem_nodes_coalesce.mp h
    exact hR.coalesce (hl hl') (hf hf')
  access kind nullSafe _ _ _ _ _ _ ho hk has h := by
    obtain ⟨-, ho', hk', has'⟩ := forall_mem_nodes_access.mp h
    exact hR.access kind nullSafe (ho ho') (hk hk') (forall₂_of_guarded has has')
  list hes h := by
    obtain ⟨-, hes'⟩ := forall_mem_nodes_list.mp h
    exact hR.list (forall₂_of_guarded hes hes')
  hash hes h := by
    obtain ⟨-, hes'⟩ := forall_mem_nodes_hash.mp h
    exact hR.hash (entriesRelated_of_guarded hes hes')
  call name _ _ has h := by
    obtain ⟨-, has'⟩ := forall_mem_nodes_call.mp h
    exact hR.call name (forall₂_of_guarded has has')

end

end Expr

namespace Scope

/-- Each name is a variable under itself, and nothing else is let pass. So an evaluation declares the
keys of its context. -/
def ofNames (functions names : List String) : Scope :=
  ofVariables functions (some (names.map .plain)) {}

variable (functions names : List String)

theorem spellings_ofNames : (ofNames functions names).spellings = names :=
  spellingsOf_map_plain names

theorem key_ofNames (name : String) : (ofNames functions names).key name = name := by
  show ((aliasesOf (names.map .plain)).get? name).getD name = name
  rw [aliasesOf_map_plain]
  rfl

end Scope

namespace Parsing

variable (functions : List String) {names names' : List String} {stream : TokenStream}

/-- The variables of a tree are names among the tokens. -/
theorem namesOnly_of_parseTokens {tree : Expr}
    (h : parseTokens (.ofNames functions names) stream = .ok tree) :
    ∀ d ∈ tree.nodes, d.NamesOnly stream.Names := by
  have hbuilt : tree.IsBuilt (.ofNames functions names)
      fun c => ∃ t ∈ stream.tokens, t.content = c := by
    exact isBuilt_of_parseTokens (fun t ht => ⟨t, List.mem_append_right _ ht, rfl⟩) h
  intro d hd
  obtain hd | ⟨n, rfl⟩ := hbuilt.of_mem_nodes d hd
  · cases hd with
    | name hc hkind _ =>
      obtain ⟨t, ht, rfl⟩ := hc
      rw [Scope.key_ofNames]
      exact ⟨t, ht, hkind, rfl⟩
    | coalescedName hc hkind _ =>
      obtain ⟨t, ht, rfl⟩ := hc
      exact ⟨t, ht, hkind, rfl⟩
    | _ => trivial
  · trivial

/-- With fewer names declared a parse differs only if it comes to one of those left out. -/
theorem simulatesScope_of_narrower {N : String → Prop} (h : ∀ n, n ∈ names ↔ n ∈ names' ∧ N n) :
    SimulatesScope SyntaxError.Resembles (fun e => ∃ n, e.fault = .unknownVariable n ∧ ¬N n)
      (fun e e' => (∀ d ∈ e.nodes, d.NamesOnly N) → e = e') (.ofNames functions names)
      (.ofNames functions names') where
  variableNamed name cursor := by
    intro s
    have hcontains (ns : List String) : ((Scope.ofNames functions ns).leniency.unknownVariables ||
        (Scope.ofNames functions ns).spellings.contains name) = ns.contains name := by
      rw [Scope.spellings_ofNames]
      rfl
    rw [variableNamed_run, variableNamed_run, hcontains, hcontains, Scope.key_ofNames,
      Scope.key_ofNames]
    simp only [List.contains_iff_mem]
    by_cases hname : name ∈ names
    · rw [if_pos hname, if_pos ((h name).mp hname).1]
      exact .ok fun _ => rfl
    · rw [if_neg hname]
      by_cases hname' : name ∈ names'
      · -- The name is one of those left out.
        have hout : ¬N name := fun hN => hname ((h name).mpr ⟨hname', hN⟩)
        rw [if_pos hname']
        split
        · refine .ok fun hnodes => absurd (hnodes (.coalescedName name) ?_) hout
          rw [Expr.nodes]
          exact List.mem_singleton_self _
        · exact .silent ⟨name, rfl, hout⟩
      · rw [if_neg hname']
        split
        · exact .ok fun _ => rfl
        · exact .error ⟨rfl, rfl, rfl, rfl, fun hfault => absurd rfl (hfault name)⟩
  callOf name cursor hsub := by
    refine .ite ?_ (.bind_same .refl _ fun _ _ => .error (.refl _))
    refine (simulates_arguments .refl hsub).bind fun as as' has => simulates_pure ?_
    exact (Expr.isCongruence_eq.guarded _).call name has

/-- The names that do not stand among the tokens may be left out. -/
theorem parseTokens_of_narrower (h : ∀ n, n ∈ names ↔ n ∈ names' ∧ stream.Names n) :
    (∃ tree, parseTokens (.ofNames functions names) stream = .ok tree ∧
      parseTokens (.ofNames functions names') stream = .ok tree) ∨
    ∃ e e', parseTokens (.ofNames functions names) stream = .error e ∧
      parseTokens (.ofNames functions names') stream = .error e' ∧ e.Resembles e' := by
  have hmatches := simulates_whole .refl (Expr.isCongruence_eq.guarded _)
    (simulatesScope_of_narrower functions h) { stream }
  have hnames (tree : Expr) (htree : parseTokens (.ofNames functions names) stream = .ok tree) :
      ∀ d ∈ tree.nodes, d.NamesOnly stream.Names := namesOnly_of_parseTokens functions htree
  have hat (e : SyntaxError) (he : parseTokens (.ofNames functions names) stream = .error e) :
      e.IsAt stream.tokens stream.expression := isAt_of_parseTokens he
  simp only [parseTokens_run] at hnames hat ⊢
  generalize whole (.ofNames functions names) { stream } = r at hmatches hnames hat ⊢
  generalize whole (.ofNames functions names') { stream } = r' at hmatches ⊢
  cases hmatches with
  | ok htree => exact .inl ⟨_, rfl, by rw [htree (hnames _ rfl)]⟩
  | error he => exact .inr ⟨_, _, rfl, rfl, he⟩
  | silent hsilent =>
    -- An unknown name is one of the tokens, so it was not left out.
    obtain ⟨n, hfault, hout⟩ := hsilent
    obtain ⟨-, t, ht, -, hname⟩ := hat _ rfl
    obtain ⟨hkind, htext, -⟩ := hname n (.inl hfault)
    exact absurd ⟨t, ht, hkind, htext⟩ hout

/-- A stream has the same tree, or the same fault, wherever the same of its names are declared. -/
theorem parseTokens_of_agree (h : ∀ n, stream.Names n → (n ∈ names ↔ n ∈ names')) :
    (∃ tree, parseTokens (.ofNames functions names) stream = .ok tree ∧
      parseTokens (.ofNames functions names') stream = .ok tree) ∨
    ∃ e e', parseTokens (.ofNames functions names) stream = .error e ∧
      parseTokens (.ofNames functions names') stream = .error e' ∧ e.Resembles e' := by
  classical
  have hmem (n : String) : n ∈ names.filter stream.Names ↔ n ∈ names ∧ stream.Names n := by
    rw [List.mem_filter, decide_eq_true_iff]
  have hmem' (n : String) : n ∈ names.filter stream.Names ↔ n ∈ names' ∧ stream.Names n := by
    rw [hmem]
    exact and_congr_left (h n)
  have hleft := parseTokens_of_narrower functions hmem
  have hright := parseTokens_of_narrower functions hmem'
  obtain ⟨tree, hnarrow, htree⟩ | ⟨e, e₁, hnarrow, he₁, hresembles⟩ := hleft
  · obtain ⟨tree', hnarrow', htree'⟩ | ⟨e, e₂, hnarrow', -⟩ := hright
    · obtain rfl := Except.ok.inj (hnarrow.symm.trans hnarrow')
      exact .inl ⟨tree, htree, htree'⟩
    · cases hnarrow.symm.trans hnarrow'
  · obtain ⟨tree', hnarrow', -⟩ | ⟨e', e₂, hnarrow', he₂, hresembles'⟩ := hright
    · cases hnarrow.symm.trans hnarrow'
    · obtain rfl := Except.error.inj (hnarrow.symm.trans hnarrow')
      exact .inr ⟨e₁, e₂, he₁, he₂, hresembles.symm.trans hresembles'⟩

end Parsing
end Formula
