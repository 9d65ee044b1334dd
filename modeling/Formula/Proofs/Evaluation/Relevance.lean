import Mathlib
import Formula.Evaluation
import Formula.Proofs.Parsing.Narrowing

/-! What an expression comes to depends on nothing in the context but the variables that it names. -/

namespace Formula

/-- The function takes nothing from the variables of the expression that calls it. -/
def Function.IgnoresContext (f : Function) : Prop :=
  ∀ host context context' arguments, f.apply host context arguments = f.apply host context' arguments

def Registry.IgnoresContext (functions : Registry) : Prop :=
  ∀ name f, functions.get? name = some f → f.IgnoresContext

namespace Evaluation

variable {host : Host} {functions : Registry} {c c' : Context}

-- By induction on the tree: a name is the only node that looks into the context by itself, and a call
-- the only one that hands it on.
mutual

theorem walk_congr (hfunctions : functions.IgnoresContext) (soft : Bool) : ∀ e : Expr,
    (∀ d ∈ e.nodes, d.NamesOnly fun n => c.get? n = c'.get? n) →
      walk ⟨host, functions, c⟩ soft e = walk ⟨host, functions, c'⟩ soft e
  | .const _ _, _ | .coalescedName _, _ => by simp only [walk]
  | .name n, h => by
    have hget : c.get? n = c'.get? n := Expr.forall_mem_nodes_name.mp h
    simp only [walk, hget]
  | .unary op e, h => by
    obtain ⟨-, he⟩ := Expr.forall_mem_nodes_unary.mp h
    simp only [walk, walk_congr hfunctions false e he]
  | .binary op left right, h => by
    obtain ⟨-, hl, hr⟩ := Expr.forall_mem_nodes_binary.mp h
    have hleft := walk_congr hfunctions false left hl
    have hright := walk_congr hfunctions false right hr
    simp only [walk, hleft, hright]
  | .conditional condition yes no, h => by
    obtain ⟨-, hc, hy, hn⟩ := Expr.forall_mem_nodes_conditional.mp h
    have hcondition := walk_congr hfunctions false condition hc
    have hyes := walk_congr hfunctions false yes hy
    have hno := walk_congr hfunctions false no hn
    simp only [walk, hcondition, hyes, hno]
  | .coalesce left fallback, h => by
    obtain ⟨-, hl, hf⟩ := Expr.forall_mem_nodes_coalesce.mp h
    have hleft := walk_congr hfunctions true left hl
    have hfallback := walk_congr hfunctions false fallback hf
    simp only [walk, hleft, hfallback]
  | .access kind nullSafe object key arguments, h => by
    obtain ⟨-, ho, hk, has⟩ := Expr.forall_mem_nodes_access.mp h
    have hobject := walk_congr hfunctions soft object ho
    have hkey := walk_congr hfunctions false key hk
    have harguments := walkAll_congr hfunctions arguments has
    simp only [walk, hobject, hkey, harguments]
  | .list es, h => by
    obtain ⟨-, hes⟩ := Expr.forall_mem_nodes_list.mp h
    simp only [walk, walkAll_congr hfunctions es hes]
  | .hash entries, h => by
    obtain ⟨-, hes⟩ := Expr.forall_mem_nodes_hash.mp h
    simp only [walk, walkEntries_congr hfunctions [] entries hes]
  | .call name arguments, h => by
    obtain ⟨-, has⟩ := Expr.forall_mem_nodes_call.mp h
    have harguments := walkAll_congr hfunctions arguments has
    simp only [walk, harguments]
    cases hget : functions.get? name with
    | none => rfl
    | some f => simp only [hfunctions name f hget host c c']

theorem walkAll_congr (hfunctions : functions.IgnoresContext) : ∀ es : List Expr,
    (∀ d ∈ Expr.nodesOf es, d.NamesOnly fun n => c.get? n = c'.get? n) →
      walkAll ⟨host, functions, c⟩ es = walkAll ⟨host, functions, c'⟩ es
  | [], _ => by simp only [walkAll]
  | e :: es, h => by
    obtain ⟨he, hes⟩ := Expr.forall_mem_nodesOf_cons.mp h
    have hhead := walk_congr hfunctions false e he
    have htail := walkAll_congr hfunctions es hes
    simp only [walkAll, hhead, htail]

theorem walkEntries_congr (hfunctions : functions.IgnoresContext) (fields : Dict Value) : ∀ entries : List (Expr × Expr),
    (∀ d ∈ Expr.nodesOfEntries entries, d.NamesOnly fun n => c.get? n = c'.get? n) →
      walkEntries ⟨host, functions, c⟩ fields entries = walkEntries ⟨host, functions, c'⟩ fields entries
  | [], _ => by simp only [walkEntries]
  | (key, value) :: entries, h => by
    obtain ⟨hk, hv, hes⟩ := Expr.forall_mem_nodesOfEntries_cons.mp h
    have hkey := walk_congr hfunctions false key hk
    have hvalue := walk_congr hfunctions false value hv
    have hrest (fields : Dict Value) := walkEntries_congr hfunctions fields entries hes
    simp only [walkEntries, hkey, hvalue, hrest]

end

end Evaluation

theorem Expr.eval_congr {host : Host} {functions : Registry} {c c' : Context} {e : Expr}
    (hfunctions : functions.IgnoresContext)
    (h : ∀ d ∈ e.nodes, d.NamesOnly fun n => c.get? n = c'.get? n) :
    e.eval host functions c = e.eval host functions c' := by
  rw [eval, eval, Evaluation.evalIn, Evaluation.evalIn, Evaluation.walk_congr hfunctions false e h]

theorem Expr.NamesOnly.imp {N N' : String → Prop} (h : ∀ n, N n → N' n) {e : Expr}
    (he : e.NamesOnly N) : e.NamesOnly N' := by
  cases e with
  | name n | coalescedName n => exact h n he
  | _ => trivial

/-- In two contexts that have the same values for the names in a text the text has the same tree, and
the tree the same value, the same failure and the same calls. Otherwise its error is the same, but for
what is proposed in the place of an unknown variable. -/
theorem eval_eq_of_agree (host : Host) {functions : Registry} {c c' : Context} {text : String}
    (hfunctions : functions.IgnoresContext)
    (hagree : ∀ stream, tokenize text = .ok stream → ∀ n, stream.Names n → c.get? n = c'.get? n) :
    (∃ tree, parseText (.ofNames functions.names c.keys) text = .ok tree ∧
      parseText (.ofNames functions.names c'.keys) text = .ok tree ∧
      tree.eval host functions c = tree.eval host functions c') ∨
    ∃ e e', parseText (.ofNames functions.names c.keys) text = .error e ∧
      parseText (.ofNames functions.names c'.keys) text = .error e' ∧ e.Resembles e' := by
  unfold parseText
  cases htokens : tokenize text with
  | error e => exact .inr ⟨e, e, rfl, rfl, .refl e⟩
  | ok stream =>
    have hget := hagree stream htokens
    have hkeys (n : String) (hn : stream.Names n) : n ∈ c.keys ↔ n ∈ c'.keys := by
      rw [← Dict.isSome_get?, ← Dict.isSome_get?, hget n hn]
    obtain ⟨tree, htree, htree'⟩ | herror := Parsing.parseTokens_of_agree functions.names hkeys
    · have hnames := Parsing.namesOnly_of_parseTokens functions.names htree
      have heval : tree.eval host functions c = tree.eval host functions c' :=
        Expr.eval_congr hfunctions fun d hd => (hnames d hd).imp hget
      exact .inl ⟨tree, htree, htree', heval⟩
    · exact .inr herror

/-- The one thing that these contexts share is named in the text. -/
theorem eval_eq_of_agree_shared :
    let echo : Function := ⟨"echo", Builtin.callScript "echo", .hosted "echo"⟩
    let host : Host := fun _ arguments => .ok (.array arguments)
    let c : Context := [("z", .int 1), ("x", .string "a")]
    let c' : Context := [("x", .string "a"), ("b", .null), ("echoes", .int 2)]
    let text := "echo(x, y ?? x)"
    let tree : Expr := .call "echo" [.name "x", .coalesce (.coalescedName "y") (.name "x")]
    let functions := Registry.put {} echo
    functions.IgnoresContext ∧
    (∀ stream, tokenize text = .ok stream → ∀ n, stream.Names n → c.get? n = c'.get? n) ∧
    parseText (.ofNames functions.names c.keys) text = .ok tree ∧
    parseText (.ofNames functions.names c'.keys) text = .ok tree ∧
    tree.eval host functions c = tree.eval host functions c' := by
  intro echo host c c' text tree functions
  have hfunctions : functions.IgnoresContext :=
    Registry.forall_get?_put (P := Function.IgnoresContext) nofun fun _ _ _ _ => rfl
  have htokens : tokenize text = .ok (.ofTokens text [⟨.name, .string "echo", 1⟩,
      ⟨.punctuation, .string "(", 5⟩, ⟨.name, .string "x", 6⟩, ⟨.punctuation, .string ",", 7⟩,
      ⟨.name, .string "y", 9⟩, ⟨.punctuation, .string "??", 11⟩, ⟨.name, .string "x", 14⟩,
      ⟨.punctuation, .string ")", 15⟩, .ending 16]) := by
    cbv
  have hagree : ∀ stream, tokenize text = .ok stream → ∀ n, stream.Names n → c.get? n = c'.get? n := by
    intro stream hstream n hn
    obtain rfl := Except.ok.inj (htokens.symm.trans hstream)
    obtain ⟨t, ht, -, rfl⟩ := hn
    fin_cases ht <;> rfl
  have hparse : parseText (.ofNames functions.names c.keys) text = .ok tree := by
    rw [parseText, htokens]
    cbv
  obtain ⟨tree', htree, htree', heval⟩ | ⟨e, -, herror, -⟩ := eval_eq_of_agree host hfunctions hagree
  · obtain rfl := Except.ok.inj (hparse.symm.trans htree)
    exact ⟨hfunctions, hagree, hparse, htree', heval⟩
  · cases hparse.symm.trans herror

end Formula
