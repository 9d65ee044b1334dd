import Mathlib.Data.List.Chain
import Formula.Proofs.Expr.Plain
import Formula.Proofs.Parsing.Derivation
import Formula.Proofs.Parsing.RoundTrip
import Formula.Proofs.Token.Scanned

/-! Texts of names, whole numbers, parentheses, operators, conditions, fallbacks and properties of
names. What they are parsed to has a source that can be read back. -/

namespace Formula

namespace Content

/-- The contents that elementary texts are made of. -/
inductive IsElementary : Content → Prop
  | name {s} : s ∉ Lexer.operatorWords → Parsing.constant? s = none → IsElementary (.name s)
  | int (n) : IsElementary ⟨.number, .int n⟩
  | operator (s) : IsElementary (.operator s)
  | mark {s} : s ∈ ["(", ")", "?", ":", "??", ".", "?."] → IsElementary (.mark s)
  | ending : IsElementary .ending

/-- Only a name has properties. -/
def Precedes (c c' : Content) : Prop := c'.isAccess = true → c.kind = .name

instance (c c' : Content) : Decidable (c.Precedes c') :=
  inferInstanceAs (Decidable (c'.isAccess = true → c.kind = .name))

variable {c : Content}

theorem IsElementary.name_of_kind (h : c.IsElementary) (hscanned : c.IsScanned)
    (hkind : c.kind = .name) : ∃ n, c = .name n ∧ IsFreeName n := by
  cases h with
  | @name n hword hconstant =>
    cases hscanned with
    | name hidentifier => exact ⟨n, rfl, hidentifier, hword, hconstant⟩
  | _ => cases hkind

theorem IsElementary.number_of_kind (h : c.IsElementary) (hscanned : c.IsScanned)
    (hkind : c.kind = .number) : ∃ n : Int64, c = ⟨.number, .int n⟩ ∧ 0 ≤ n.toInt := by
  cases h with
  | int n =>
    cases hscanned with
    | int hn => exact ⟨n, rfl, hn⟩
  | _ => cases hkind

theorem IsElementary.kind_ne_string (h : c.IsElementary) : c.kind ≠ .string := by
  cases h <;> simp [Content.name, Content.operator, Content.mark, Content.ending]

theorem IsElementary.isMark_eq_false (h : c.IsElementary) {s : String}
    (hs : s ∉ ["(", ")", "?", ":", "??", ".", "?."]) : c.isMark s = false := by
  cases h with
  | mark hmark =>
    rw [isMark_mark, beq_eq_false_iff_ne]
    rintro rfl
    exact hs hmark
  | _ => exact isMark_of_kind (by simp [Content.name, Content.operator, Content.ending]) s

end Content

/-- Contents of an elementary text, or of the rest of one. -/
structure Elementary (cs : List Content) : Prop where
  contents : ∀ c ∈ cs, c.IsElementary
  accesses : cs.IsChain Content.Precedes

/-- A text made of elementary tokens alone. -/
def IsElementary (text : String) : Prop :=
  ∃ stream, tokenize text = .ok stream ∧
    Elementary ((stream.current :: stream.after).map Token.content)

/-- Elementary contents as they are read from text. -/
structure Ready (cs : List Content) : Prop where
  elementary : Elementary cs
  scanned : ∀ c ∈ cs, c.IsScanned

namespace Ready

variable {c : Content} {cs : List Content} (h : Ready (c :: cs))
include h

theorem head : c.IsElementary := h.elementary.contents c List.mem_cons_self

theorem head_scanned : c.IsScanned := h.scanned c List.mem_cons_self

theorem tail : Ready cs where
  elementary := ⟨(List.forall_mem_cons.mp h.elementary.contents).2, h.elementary.accesses.tail⟩
  scanned := (List.forall_mem_cons.mp h.scanned).2

theorem isAccess_head?_tail (hkind : c.kind ≠ .name) : ∀ d ∈ cs.head?, d.isAccess = false := by
  cases cs with
  | nil => exact nofun
  | cons d ds =>
    intro d' hd'
    obtain rfl := Option.some.inj hd'
    exact Bool.eq_false_iff.mpr fun haccess => hkind (h.elementary.accesses.rel haccess)

end Ready

/-- The trees in a phrase have a source that can be read back, and what stands behind is elementary. No
access step follows a constant, since it would stand behind a number or a parenthesis. -/
def Phrase.IsPlainBefore (rest : List Content) : Phrase → Prop
  | expr e => e.IsPlain True ∧ Ready rest ∧
      (e.isConst = true → ∀ c ∈ rest.head?, c.isAccess = false)
  | exprs es | arguments es => (∀ e ∈ es, e.IsPlain True) ∧ Ready rest
  | key _ | entries _ => True

theorem Content.isAccess_of_isMark {c : Content} {nullSafe : Bool}
    (h : c.isMark (if nullSafe then "?." else ".") = true) : c.isAccess = true := by
  cases nullSafe <;> simp_all [isAccess]

theorem Content.kind_of_isMark {c : Content} {s : String} (h : c.isMark s = true) :
    c.kind ≠ .name :=
  fun hkind => Bool.false_ne_true ((isMark_of_kind (by simp [hkind]) s).symm.trans h)

/-- No access step stands on a constant. -/
theorem isConst_eq_false_of_isMark {e : Expr} {c : Content} {rest : List Content} {nullSafe : Bool}
    (h : e.isConst = true → ∀ d ∈ (c :: rest).head?, d.isAccess = false)
    (hdot : c.isMark (if nullSafe then "?." else ".") = true) : e.isConst = false := by
  refine Bool.eq_false_iff.mpr fun hconst => Bool.false_ne_true ?_
  exact (h hconst c rfl).symm.trans (Content.isAccess_of_isMark hdot)

theorem Derives.isPlainBefore {functions : List String} {cs rest : List Content} {phrase : Phrase}
    (h : Derives (Parsing.lenient functions) cs phrase rest) (hcs : Ready cs) :
    phrase.IsPlainBefore rest := by
  -- Brackets, braces and commas are not elementary.
  have hnone {c : Content} {s : String} (hc : c.IsElementary) (hmark : c.isMark s = true)
      (hs : s ∉ ["(", ")", "?", ":", "??", ".", "?."]) : False :=
    Bool.false_ne_true ((hc.isMark_eq_false hs).symm.trans hmark)
  induction h with
  | @literal c rest hkind =>
    have hnumber : c.kind = .number := hkind.resolve_right hcs.head.kind_ne_string
    obtain ⟨n, rfl, hn⟩ := hcs.head.number_of_kind hcs.head_scanned hnumber
    exact ⟨.const hn, hcs.tail, fun _ => hcs.isAccess_head?_tail nofun⟩
  | constant hkind hv =>
    obtain ⟨n, rfl, hfree⟩ := hcs.head.name_of_kind hcs.head_scanned hkind
    exact absurd (hv.symm.trans hfree.2.2) nofun
  | name hkind _ =>
    obtain ⟨n, rfl, hfree⟩ := hcs.head.name_of_kind hcs.head_scanned hkind
    exact ⟨.name hfree, hcs.tail, nofun⟩
  | coalescedName _ hunknown _ => exact absurd (.inl rfl) hunknown
  | call hkind _ _ ih =>
    obtain ⟨n, rfl, hfree⟩ := hcs.head.name_of_kind hcs.head_scanned hkind
    obtain ⟨has, hrest⟩ := ih hcs.tail
    exact ⟨.call hfree has, hrest, nofun⟩
  | enclosed _ _ hclose ih =>
    obtain ⟨he, hrest, -⟩ := ih hcs.tail
    exact ⟨he, hrest.tail, fun _ => hrest.isAccess_head?_tail (Content.kind_of_isMark hclose)⟩
  | unary _ _ ih =>
    obtain ⟨he, hrest, -⟩ := ih hcs.tail
    exact ⟨.unary _ he, hrest, nofun⟩
  | binary _ _ _ ihl ihr =>
    obtain ⟨hl, hmid, -⟩ := ihl hcs
    obtain ⟨hr, hrest, -⟩ := ihr hmid.tail
    exact ⟨.binary _ hl hr, hrest, nofun⟩
  | coalesce _ _ _ ihl ihf =>
    obtain ⟨hl, hmid, -⟩ := ihl hcs
    obtain ⟨hf, hrest, -⟩ := ihf hmid.tail
    exact ⟨.coalesce trivial hl hf, hrest, nofun⟩
  | conditional _ _ _ _ _ ihc ihy ihn =>
    obtain ⟨hc, hmid, -⟩ := ihc hcs
    obtain ⟨hy, hmid', -⟩ := ihy hmid.tail
    obtain ⟨hn, hrest, -⟩ := ihn hmid'.tail
    exact ⟨.conditional hc hy hn, hrest, nofun⟩
  | conditionalNull _ _ _ ihc ihy =>
    obtain ⟨hc, hmid, -⟩ := ihc hcs
    obtain ⟨hy, hrest, -⟩ := ihy hmid.tail
    exact ⟨.conditional hc hy (.const trivial), hrest, nofun⟩
  | conditionalSelf _ _ _ _ ihc ihn =>
    obtain ⟨hc, hmid, -⟩ := ihc hcs
    obtain ⟨hn, hrest, -⟩ := ihn hmid.tail.tail
    exact ⟨.conditional hc hc hn, hrest, nofun⟩
  | property nullSafe _ hdot hname iho =>
    obtain ⟨ho, hmid, hconst⟩ := iho hcs
    have hobject := isConst_eq_false_of_isMark hconst hdot
    have hidentifier := isIdentifier_of_memberName? (t := Content.token _ 0) hmid.tail.head_scanned hname
    exact ⟨.property nullSafe ho hobject hidentifier, hmid.tail.tail, nofun⟩
  | method nullSafe _ hdot hname _ iho ihas =>
    obtain ⟨ho, hmid, hconst⟩ := iho hcs
    have hobject := isConst_eq_false_of_isMark hconst hdot
    have hidentifier := isIdentifier_of_memberName? (t := Content.token _ 0) hmid.tail.head_scanned hname
    obtain ⟨has, hrest⟩ := ihas hmid.tail.tail
    exact ⟨.method nullSafe ho hobject hidentifier has, hrest, nofun⟩
  | index _ hbracket _ _ iho _ =>
    obtain ⟨-, hmid, -⟩ := iho hcs
    exact (hnone hmid.head hbracket (by decide)).elim
  | nullSafeIndex _ _ hbracket _ _ iho _ =>
    obtain ⟨-, hmid, -⟩ := iho hcs
    exact (hnone hmid.tail.head hbracket (by decide)).elim
  | list hbracket _ _ _ _ => exact (hnone hcs.head hbracket (by decide)).elim
  | hash hbrace _ _ _ _ => exact (hnone hcs.head hbrace (by decide)).elim
  | noExprs => exact ⟨nofun, hcs⟩
  | nextExpr _ hmid _ ihs ih =>
    obtain ⟨hes, hcs'⟩ := ihs hcs
    cases hmid with
    | first =>
      obtain ⟨he, hrest, -⟩ := ih hcs'
      exact ⟨List.forall_mem_append.mpr ⟨hes, List.forall_mem_singleton.mpr he⟩, hrest⟩
    | comma _ hcomma => exact (hnone hcs'.head hcomma (by decide)).elim
  | arguments _ _ _ ih =>
    obtain ⟨has, hrest⟩ := ih hcs.tail
    exact ⟨has, hrest.tail⟩
  | keyToken | keyExpr | noEntries | nextEntry => trivial

namespace Parsing

/-- The tree of an elementary text has a source that can be read back. -/
theorem isPlain_of_parseText {text : String} {functions : List String} {e : Expr}
    (htext : IsElementary text) (h : parseText (lenient functions) text = .ok e) :
    e.IsPlain True := by
  obtain ⟨stream, htokens, helementary⟩ := htext
  have hready : Ready ((stream.current :: stream.after).map Token.content) :=
    ⟨helementary, fun c hc => by
      obtain ⟨t, ht, rfl⟩ := List.mem_map.mp hc
      exact isScanned_tokenize htokens t ht⟩
  obtain ⟨stream', htokens', hparse⟩ := parseText_eq_ok_iff.mp h
  obtain rfl := Except.ok.inj (htokens.symm.trans htokens')
  obtain ⟨rest, hderives⟩ := derives_of_parseTokens hparse
  exact (hderives.isPlainBefore hready).1

end Parsing
end Formula
