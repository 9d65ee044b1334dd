import Formula.Proofs.Parsing.Derivation
import Formula.Proofs.Token.Scanned

/-! The trees that a parse can build under a scope from tokens of a certain sort: one rule for each
place where a production makes a tree. -/

namespace Formula

namespace Expr

inductive IsBuilt (scope : Scope) (allowed : Content → Prop) : Expr → Prop
  | literal {c} : allowed c → c.kind = .string ∨ c.kind = .name ∨ c.kind = .number →
      IsBuilt scope allowed (literal c.value)
  | constant {n v} : Parsing.constant? n = some v → IsBuilt scope allowed (literal v)
  | name {c} : allowed c → c.kind = .name → scope.Knows c.text →
      IsBuilt scope allowed (name (scope.key c.text))
  | coalescedName {c} : allowed c → c.kind = .name → ¬scope.Knows c.text →
      IsBuilt scope allowed (coalescedName c.text)
  | unary (op) {e} : IsBuilt scope allowed e → IsBuilt scope allowed (unary op e)
  | binary (op) {l r} : IsBuilt scope allowed l → IsBuilt scope allowed r →
      IsBuilt scope allowed (binary op l r)
  | conditional {c y n} : IsBuilt scope allowed c → IsBuilt scope allowed y →
      IsBuilt scope allowed n → IsBuilt scope allowed (conditional c y n)
  | coalesce {l r} : IsBuilt scope allowed l → IsBuilt scope allowed r →
      IsBuilt scope allowed (coalesce l r)
  | property (nullSafe) {o c n} : IsBuilt scope allowed o → allowed c →
      Parsing.memberName? (c.token 0) = some n →
      IsBuilt scope allowed (access .property nullSafe o (identifier n) [])
  | method (nullSafe) {o c n as} : IsBuilt scope allowed o → allowed c →
      Parsing.memberName? (c.token 0) = some n → (∀ a ∈ as, IsBuilt scope allowed a) →
      IsBuilt scope allowed (access .method nullSafe o (identifier n) as)
  | index (nullSafe) {o k} : IsBuilt scope allowed o → IsBuilt scope allowed k →
      IsBuilt scope allowed (access .index nullSafe o k [])
  | list {es} : (∀ e ∈ es, IsBuilt scope allowed e) → IsBuilt scope allowed (list es)
  | hash {es} : (∀ p ∈ es, IsBuilt scope allowed p.1) → (∀ p ∈ es, IsBuilt scope allowed p.2) →
      IsBuilt scope allowed (hash es)
  | call {c as} : allowed c → c.kind = .name → scope.KnowsFunction c.text →
      (∀ a ∈ as, IsBuilt scope allowed a) → IsBuilt scope allowed (call c.text as)

end Expr

variable {scope : Scope} {allowed : Content → Prop}

/-- All trees in a phrase are built. -/
def Phrase.IsBuilt (scope : Scope) (allowed : Content → Prop) : Phrase → Prop
  | expr e | key e => e.IsBuilt scope allowed
  | exprs es | arguments es => ∀ e ∈ es, e.IsBuilt scope allowed
  | entries es => ∀ p ∈ es, p.1.IsBuilt scope allowed ∧ p.2.IsBuilt scope allowed

theorem Separates.allows {α : Type} {as : List α} {cs rest : List Content} (h : Separates as cs rest)
    (hcs : ∀ c ∈ cs, allowed c) : ∀ c ∈ rest, allowed c := by
  cases h with
  | first => exact hcs
  | comma _ _ => exact (List.forall_mem_cons.mp hcs).2

theorem allows_of_eq_or_separates {α : Type} {as : List α} {cs rest : List Content}
    (h : cs = rest ∨ Separates as cs rest) (hcs : ∀ c ∈ cs, allowed c) : ∀ c ∈ rest, allowed c := by
  obtain rfl | h := h
  · exact hcs
  · exact h.allows hcs

/-- What is derived from tokens that are allowed is built of them, and those behind are allowed. -/
theorem Derives.isBuilt {cs rest : List Content} {phrase : Phrase} (h : Derives scope cs phrase rest)
    (hcs : ∀ c ∈ cs, allowed c) : phrase.IsBuilt scope allowed ∧ ∀ c ∈ rest, allowed c := by
  induction h with
  | literal hkind =>
    rw [List.forall_mem_cons] at hcs
    exact ⟨.literal hcs.1 (hkind.symm.imp_right .inr), hcs.2⟩
  | constant hkind hv =>
    rw [List.forall_mem_cons] at hcs
    exact ⟨.constant hv, hcs.2⟩
  | name hkind hknown =>
    rw [List.forall_mem_cons] at hcs
    exact ⟨.name hcs.1 hkind hknown, hcs.2⟩
  | coalescedName hkind hunknown _ =>
    rw [List.forall_mem_cons] at hcs
    exact ⟨.coalescedName hcs.1 hkind hunknown, hcs.2⟩
  | call hkind hknown _ ih =>
    rw [List.forall_mem_cons] at hcs
    obtain ⟨has, hrest⟩ := ih hcs.2
    exact ⟨.call hcs.1 hkind hknown has, hrest⟩
  | enclosed _ _ _ ih =>
    obtain ⟨he, hrest⟩ := ih (List.forall_mem_cons.mp hcs).2
    exact ⟨he, (List.forall_mem_cons.mp hrest).2⟩
  | unary _ _ ih =>
    obtain ⟨he, hrest⟩ := ih (List.forall_mem_cons.mp hcs).2
    exact ⟨.unary _ he, hrest⟩
  | binary _ _ _ ihl ihr =>
    obtain ⟨hl, hmid⟩ := ihl hcs
    obtain ⟨hr, hrest⟩ := ihr (List.forall_mem_cons.mp hmid).2
    exact ⟨.binary _ hl hr, hrest⟩
  | coalesce _ _ _ ihl ihf =>
    obtain ⟨hl, hmid⟩ := ihl hcs
    obtain ⟨hf, hrest⟩ := ihf (List.forall_mem_cons.mp hmid).2
    exact ⟨.coalesce hl hf, hrest⟩
  | conditional _ _ _ _ _ ihc ihy ihn =>
    obtain ⟨hc, hmid⟩ := ihc hcs
    obtain ⟨hy, hmid'⟩ := ihy (List.forall_mem_cons.mp hmid).2
    obtain ⟨hn, hrest⟩ := ihn (List.forall_mem_cons.mp hmid').2
    exact ⟨.conditional hc hy hn, hrest⟩
  | conditionalNull _ _ _ ihc ihy =>
    obtain ⟨hc, hmid⟩ := ihc hcs
    obtain ⟨hy, hrest⟩ := ihy (List.forall_mem_cons.mp hmid).2
    exact ⟨.conditional hc hy (.constant (show Parsing.constant? "null" = some .null from rfl)), hrest⟩
  | conditionalSelf _ _ _ _ ihc ihn =>
    obtain ⟨hc, hmid⟩ := ihc hcs
    rw [List.forall_mem_cons, List.forall_mem_cons] at hmid
    obtain ⟨hn, hrest⟩ := ihn hmid.2.2
    exact ⟨.conditional hc hc hn, hrest⟩
  | property nullSafe _ _ hname iho =>
    obtain ⟨ho, hmid⟩ := iho hcs
    rw [List.forall_mem_cons, List.forall_mem_cons] at hmid
    exact ⟨.property nullSafe ho hmid.2.1 hname, hmid.2.2⟩
  | method nullSafe _ _ hname _ iho ihas =>
    obtain ⟨ho, hmid⟩ := iho hcs
    rw [List.forall_mem_cons, List.forall_mem_cons] at hmid
    obtain ⟨has, hrest⟩ := ihas hmid.2.2
    exact ⟨.method nullSafe ho hmid.2.1 hname has, hrest⟩
  | index _ _ _ _ iho ihk =>
    obtain ⟨ho, hmid⟩ := iho hcs
    obtain ⟨hk, hrest⟩ := ihk (List.forall_mem_cons.mp hmid).2
    exact ⟨.index false ho hk, (List.forall_mem_cons.mp hrest).2⟩
  | nullSafeIndex _ _ _ _ _ iho ihk =>
    obtain ⟨ho, hmid⟩ := iho hcs
    rw [List.forall_mem_cons, List.forall_mem_cons] at hmid
    obtain ⟨hk, hrest⟩ := ihk hmid.2.2
    exact ⟨.index true ho hk, (List.forall_mem_cons.mp hrest).2⟩
  | list _ _ hmid _ ih =>
    obtain ⟨hes, hcs'⟩ := ih (List.forall_mem_cons.mp hcs).2
    exact ⟨.list hes, (List.forall_mem_cons.mp (allows_of_eq_or_separates hmid hcs')).2⟩
  | hash _ _ hmid _ ih =>
    obtain ⟨hes, hcs'⟩ := ih (List.forall_mem_cons.mp hcs).2
    exact ⟨.hash (fun p hp => (hes p hp).1) fun p hp => (hes p hp).2,
      (List.forall_mem_cons.mp (allows_of_eq_or_separates hmid hcs')).2⟩
  | noExprs | noEntries => exact ⟨nofun, hcs⟩
  | nextExpr _ hmid _ ihs ih =>
    obtain ⟨hes, hcs'⟩ := ihs hcs
    obtain ⟨he, hrest⟩ := ih (hmid.allows hcs')
    exact ⟨List.forall_mem_append.mpr ⟨hes, List.forall_mem_singleton.mpr he⟩, hrest⟩
  | arguments _ _ _ ih =>
    obtain ⟨has, hrest⟩ := ih (List.forall_mem_cons.mp hcs).2
    exact ⟨has, (List.forall_mem_cons.mp hrest).2⟩
  | keyToken hkind =>
    rw [List.forall_mem_cons] at hcs
    exact ⟨.literal hcs.1 hkind, hcs.2⟩
  | keyExpr _ _ ih => exact ih hcs
  | nextEntry _ hmid _ _ _ ihs ihk ihv =>
    obtain ⟨hes, hcs'⟩ := ihs hcs
    obtain ⟨hk, hmid'⟩ := ihk (hmid.allows hcs')
    obtain ⟨hv, hrest⟩ := ihv (List.forall_mem_cons.mp hmid').2
    exact ⟨List.forall_mem_append.mpr ⟨hes, List.forall_mem_singleton.mpr ⟨hk, hv⟩⟩, hrest⟩

namespace Parsing

theorem isBuilt_of_parseTokens {stream : TokenStream} {e : Expr}
    (hallowed : ∀ t ∈ stream.current :: stream.after, allowed t.content)
    (h : parseTokens scope stream = .ok e) : e.IsBuilt scope allowed := by
  obtain ⟨rest, hderives⟩ := derives_of_parseTokens h
  refine (hderives.isBuilt fun c hc => ?_).1
  obtain ⟨t, ht, rfl⟩ := List.mem_map.mp hc
  exact hallowed t ht

/-- The tree of a text is built from tokens that carry what their kind promises. -/
theorem isBuilt_of_parseText {text : String} {e : Expr} (h : parseText scope text = .ok e) :
    e.IsBuilt scope Content.IsScanned := by
  obtain ⟨stream, htokens, hparse⟩ := parseText_eq_ok_iff.mp h
  exact isBuilt_of_parseTokens (isScanned_tokenize htokens) hparse

end Parsing
end Formula
