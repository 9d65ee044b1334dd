import Mathlib
import Formula.Proofs.Expr.Nodes

/-! What an access step may stand on. -/

namespace Formula

namespace Expr

def isCoalescedName : Expr → Bool
  | coalescedName _ => true
  | _ => false

/-- An access step on a name stands on one that is known. -/
def HasObject : Expr → Prop
  | access _ _ object _ _ => object.isCoalescedName = false
  | _ => True

end Expr

/-- The nodes of all trees in a phrase. -/
def Phrase.nodes : Phrase → List Expr
  | expr e | key e => e.nodes
  | exprs es | arguments es => Expr.nodesOf es
  | entries es => Expr.nodesOfEntries es

variable {scope : Scope} {cs rest : List Content} {c : Content} {phrase : Phrase} {e : Expr}

theorem Content.eq_of_isMark {s s' : String} (h : c.isMark s = true) (h' : c.isMark s' = true) :
    s = s' := by
  have hsame : mark s = mark s' := (isMark_iff.mp h).symm.trans (isMark_iff.mp h')
  simpa [mark] using hsame

/-- Behind a name that is not known `??` follows. -/
theorem Derives.exists_isMark (h : Derives scope cs phrase rest) :
    ∀ e, phrase = .expr e → e.isCoalescedName = true →
      ∃ c rest', rest = c :: rest' ∧ c.isMark "??" = true := by
  induction h with
  | coalescedName _ _ hmark => exact fun _ _ _ => ⟨_, _, rfl, hmark⟩
  | enclosed _ _ hclose ih =>
    rintro e ⟨⟩ hname
    obtain ⟨c, rest', hrest, hmark⟩ := ih _ rfl hname
    obtain ⟨rfl, rfl⟩ := List.cons.inj hrest
    exact absurd (Content.eq_of_isMark hclose hmark) (by decide)
  | _ =>
    rintro e heq hname
    cases heq
    try cases hname

/-- What an access step stands on is known, for the step's mark is not `??`. -/
theorem Derives.isCoalescedName_eq_false (h : Derives scope cs (.expr e) (c :: rest))
    {mark : String} (hmark : c.isMark mark = true) (hne : mark ≠ "??") : e.isCoalescedName = false := by
  refine Bool.eq_false_iff.mpr fun hname => ?_
  obtain ⟨c', rest', hrest, hcoalesce⟩ := h.exists_isMark e rfl hname
  obtain ⟨rfl, rfl⟩ := List.cons.inj hrest
  exact hne (Content.eq_of_isMark hmark hcoalesce)

theorem Derives.hasObject (h : Derives scope cs phrase rest) : ∀ d ∈ phrase.nodes, d.HasObject := by
  have hmember (n : String) : ∀ d ∈ (Expr.identifier n).nodes, d.HasObject :=
    Expr.forall_mem_nodes_const.mpr trivial
  have hdot (nullSafe : Bool) : (if nullSafe then "?." else ".") ≠ "??" := by
    cases nullSafe <;> decide
  induction h with
  | literal | constant | keyToken => exact Expr.forall_mem_nodes_const.mpr trivial
  | name => exact Expr.forall_mem_nodes_name.mpr trivial
  | coalescedName => exact Expr.forall_mem_nodes_coalescedName.mpr trivial
  | call _ _ _ ih => exact Expr.forall_mem_nodes_call.mpr ⟨trivial, ih⟩
  | enclosed _ _ _ ih => exact ih
  | unary _ _ ih => exact Expr.forall_mem_nodes_unary.mpr ⟨trivial, ih⟩
  | binary _ _ _ ihl ihr => exact Expr.forall_mem_nodes_binary.mpr ⟨trivial, ihl, ihr⟩
  | coalesce _ _ _ ihl ihf => exact Expr.forall_mem_nodes_coalesce.mpr ⟨trivial, ihl, ihf⟩
  | conditional _ _ _ _ _ ihc ihy ihn =>
    exact Expr.forall_mem_nodes_conditional.mpr ⟨trivial, ihc, ihy, ihn⟩
  | conditionalNull _ _ _ ihc ihy =>
    exact Expr.forall_mem_nodes_conditional.mpr
      ⟨trivial, ihc, ihy, Expr.forall_mem_nodes_const.mpr trivial⟩
  | conditionalSelf _ _ _ _ ihc ihn =>
    exact Expr.forall_mem_nodes_conditional.mpr ⟨trivial, ihc, ihc, ihn⟩
  | property nullSafe ho hmark _ iho =>
    exact Expr.forall_mem_nodes_access.mpr ⟨ho.isCoalescedName_eq_false hmark (hdot nullSafe), iho,
      hmember _, Expr.forall_mem_nodesOf_nil⟩
  | method nullSafe ho hmark _ _ iho ihas =>
    exact Expr.forall_mem_nodes_access.mpr
      ⟨ho.isCoalescedName_eq_false hmark (hdot nullSafe), iho, hmember _, ihas⟩
  | index ho hmark _ _ iho ihk | nullSafeIndex ho hmark _ _ _ iho ihk =>
    exact Expr.forall_mem_nodes_access.mpr ⟨ho.isCoalescedName_eq_false hmark (by decide), iho, ihk,
      Expr.forall_mem_nodesOf_nil⟩
  | list _ _ _ _ ih => exact Expr.forall_mem_nodes_list.mpr ⟨trivial, ih⟩
  | hash _ _ _ _ ih => exact Expr.forall_mem_nodes_hash.mpr ⟨trivial, ih⟩
  | noExprs => exact Expr.forall_mem_nodesOf_nil
  | nextExpr _ _ _ ihs ih =>
    rw [Phrase.nodes, Expr.forall_mem_nodesOf] at ihs ⊢
    exact List.forall_mem_append.mpr ⟨ihs, List.forall_mem_singleton.mpr ih⟩
  | arguments _ _ _ ih => exact ih
  | keyExpr _ _ ih => exact ih
  | noEntries => exact Expr.forall_mem_nodesOfEntries_nil
  | nextEntry _ _ _ _ _ ihs ihk ihv =>
    rw [Phrase.nodes, Expr.forall_mem_nodesOfEntries] at ihs ⊢
    exact List.forall_mem_append.mpr ⟨ihs, List.forall_mem_singleton.mpr ⟨ihk, ihv⟩⟩

namespace Parsing

/-- No access step stands on a name that is unknown. -/
theorem hasObject_of_parseText {text : String} (h : parseText scope text = .ok e) :
    ∀ d ∈ e.nodes, d.HasObject := by
  obtain ⟨stream, -, hparse⟩ := parseText_eq_ok_iff.mp h
  obtain ⟨rest, hderives⟩ := derives_of_parseTokens hparse
  exact hderives.hasObject

end Parsing
end Formula
