import Formula.Proofs.Expr.Plain
import Formula.Proofs.Token.Phrase

/-! The source of a tree is scanned to the contents of the tree. -/

namespace Formula

open Lexer
open Content (enclosed separated accessMark)

theorem normalize_of_notMem {c : Char} (h : c ∉ ['\t', '\n', '\x0b', '\x0c', '\r']) :
    Lexer.normalize c = c := by
  simp only [List.mem_cons, List.not_mem_nil, or_false, not_or] at h
  simp [Lexer.normalize, h]

theorem isOperatorAt_of_isFree {name : String} (hname : Parsing.isIdentifier name = true)
    (hfree : name ∉ operatorWords) {rest : List Char} (hrest : endsName (rest.map normalize) = true) :
    isOperatorAt ((name.toList ++ rest).map normalize) "in" = false := by
  obtain ⟨c, cs, hlist, hc, hcs⟩ := toList_of_isIdentifier hname
  have hchars : ∀ x ∈ c :: cs, isNameChar x = true :=
    List.forall_mem_cons.mpr ⟨by simp [isNameChar, hc], hcs⟩
  have hnormal := map_normalize_of_isNameChar hchars
  rw [hlist, List.map_append, hnormal]
  rw [← String.ofList_toList (s := name), hlist] at hfree
  simpa using isOperatorAt_name hchars (by simpa using hc) hfree hrest "in" (by decide)

namespace Value

theorem isOperatorAt_source {v : Value} (h : v.IsPlain) (rest : List Char) :
    isOperatorAt ((v.source.toList ++ rest).map normalize) "in" = false := by
  cases v with
  | null => rfl
  | bool b => cases b <;> rfl
  | string s =>
    rw [source, quoted, String.toList_ofList]
    rfl
  | int n =>
    obtain ⟨c, cs, hcons, hdigit⟩ := exists_head_toDigits n.toInt.toNat
    have hne : 'i' ≠ normalize c := by
      rw [normalize_of_isNameChar (by simp [isNameChar, hdigit])]
      rintro rfl
      exact absurd hdigit (by decide)
    rw [source, toList_toString_of_nonneg h, hcons]
    simp [isOperatorAt, dropLexeme?, hne]
  | float | array | object | function => exact h.elim

theorem prints_source {v : Value} (h : v.IsPlain) : Prints v.source.toList [v.content] := by
  intro rest hrest
  cases v with
  | null => exact reaches_name (by decide) (.inr (by decide)) hrest.1
  | bool b =>
    cases b with
    | false => exact reaches_name (by decide) (.inr (by decide)) hrest.1
    | true => exact reaches_name (by decide) (.inr (by decide)) hrest.1
  | string s =>
    rw [source]
    exact reaches_quoted (fun c hc => normalize_of_notMem (h c hc)) rest
  | int n =>
    rw [source]
    exact reaches_int h hrest.2
  | float | array | object | function => exact h.elim

end Value

namespace Expr

variable {fallbacks : Prop}

attribute [local simp] source contents

theorem sources_eq_map (es : List Expr) : sources es = es.map source := by
  induction es with
  | nil => simp [sources]
  | cons e es ih => simp [sources, ih]

def entrySource (p : Expr × Expr) : String :=
  (if p.1.isConst then p.1.source else "(" ++ p.1.source ++ ")") ++ ": " ++ p.2.source

def entryContents (p : Expr × Expr) : List Content :=
  (if p.1.isConst then p.1.contents else enclosed '(' p.1.contents) ++ .mark ":" :: p.2.contents

theorem entrySources_eq_map (es : List (Expr × Expr)) : entrySources es = es.map entrySource := by
  induction es with
  | nil => simp [entrySources]
  | cons p es ih => simp [entrySources, entrySource, ih]

theorem entryContentsOf_eq_map (es : List (Expr × Expr)) :
    entryContentsOf es = es.map entryContents := by
  induction es with
  | nil => simp [entryContentsOf]
  | cons p es ih => simp [entryContentsOf, entryContents, ih]

/-- No source begins with the word `in`. -/
theorem isOperatorAt_source {e : Expr} (h : e.IsPlain fallbacks) {rest : List Char}
    (hrest : endsName (rest.map normalize) = true) :
    isOperatorAt ((e.source.toList ++ rest).map normalize) "in" = false := by
  induction h generalizing rest with
  | const hv =>
    rw [source]
    exact Value.isOperatorAt_source hv rest
  | name hn =>
    rw [source]
    exact isOperatorAt_of_isFree hn.1 hn.2.1 hrest
  | unary | binary | conditional | coalesce | list | hash =>
    simp only [source, String.toList_append, List.append_assoc]
    rfl
  | property nullSafe _ _ _ ih | method nullSafe _ _ _ _ ih =>
    simp only [source, String.toList_append, List.append_assoc]
    apply ih
    cases nullSafe <;> rfl
  | index nullSafe _ _ _ ih =>
    simp only [source, String.toList_append, List.append_assoc]
    apply ih
    cases nullSafe <;> rfl
  | call hf =>
    simp only [source, String.toList_append, List.append_assoc]
    exact isOperatorAt_of_isFree hf.1 hf.2.1 rfl

/-- The source of a tree is read as its contents in front of what may follow it: only a number could
go on with a point. -/
def IsPrinted (e : Expr) : Prop :=
  ∀ {rest : List Char}, endsName (rest.map normalize) = true →
    (e.isConst = true → endsNumber (rest.map normalize) = true) →
      Reaches false (e.source.toList ++ rest) e.contents false rest

variable {e l r c y n o k : Expr} {es as : List Expr} {rest : List Char}

theorem IsPrinted.scans (h : e.IsPrinted) : Scans e.isConst e.source.toList e.contents := fun _ => h

theorem isPrinted_of_scans {text : List Char} {ls : List Content} (h : Scans false text ls)
    (htext : e.source.toList = text) (hcontents : e.contents = ls) : e.IsPrinted := by
  intro rest hname _
  rw [htext, hcontents]
  exact h rest hname nofun

theorem IsPrinted.scans_object (h : e.IsPrinted) (hconst : e.isConst = false) :
    Scans false e.source.toList e.contents := hconst ▸ h.scans

theorem IsPrinted.prints (h : e.IsPrinted) : Prints e.source.toList e.contents := h.scans.prints

theorem isPrinted_unary (op : UnaryOp) (he : e.IsPlain fallbacks) (h : e.IsPrinted) :
    (unary op e).IsPrinted := by
  intro rest _ _
  have htext : (unary op e).source.toList ++ rest =
      '(' :: (op.symbol.toList ++ ' ' :: (e.source.toList ++ ')' :: rest)) := by simp
  rw [htext, contents]
  refine reaches_bracketed rfl ?_ false
  refine (reaches_unary op fun _ => isOperatorAt_source he rfl).trans ?_
  exact (reaches_space false _).trans (h rfl fun _ => rfl)

theorem isPrinted_binary (op : BinaryOp) (hl : l.IsPrinted) (hr : r.IsPrinted) :
    (binary op l r).IsPrinted := by
  have hscans := (hl.scans.joined (isInfix_binary op) hr.scans).inBrackets '(' rfl
  apply isPrinted_of_scans hscans
  · simp [closing]
  · rw [contents]

theorem isPrinted_conditional (hc : c.IsPrinted) (hy : y.IsPrinted) (hn : n.IsPrinted) :
    (conditional c y n).IsPrinted := by
  have hbranches := hy.scans.joined isInfix_colon hn.scans
  have hscans := (hc.scans.joined isInfix_question hbranches).inBrackets '(' rfl
  apply isPrinted_of_scans hscans
  · simp [closing]
  · rw [contents]

theorem isPrinted_coalesce (hl : l.IsPrinted) (hr : r.IsPrinted) : (coalesce l r).IsPrinted := by
  have hleft := hl.scans.inBrackets '(' rfl
  have hscans := hleft.joined isInfix_coalesce (hr.scans.inBrackets '(' rfl)
  apply isPrinted_of_scans hscans
  · simp [closing]
  · rw [contents]

theorem isPrinted_property {member : String} (nullSafe : Bool) (ho : o.IsPrinted)
    (hconst : o.isConst = false) (hmember : Parsing.isIdentifier member = true) :
    (access .property nullSafe o (const (.string member) true) []).IsPrinted := by
  have hscans := (ho.scans_object hconst).member nullSafe hmember
  apply isPrinted_of_scans hscans
  · simp [Value.text]
  · simp [Value.text]

theorem isPrinted_method {member : String} (nullSafe : Bool) (ho : o.IsPrinted)
    (hconst : o.isConst = false) (hmember : Parsing.isIdentifier member = true)
    (has : ∀ a ∈ as, a.IsPrinted) :
    (access .method nullSafe o (const (.string member) true) as).IsPrinted := by
  have harguments : ∀ a ∈ as, Prints a.source.toList a.contents := fun a ha =>
    IsPrinted.prints (has a ha)
  have hscans := ((ho.scans_object hconst).member nullSafe hmember).arguments harguments
  apply isPrinted_of_scans hscans
  · simp [Value.text, sources_eq_map]
  · simp [Value.text, contentsOf_eq_map]

theorem isPrinted_index (nullSafe : Bool) (ho : o.IsPrinted) (hconst : o.isConst = false)
    (hk : k.IsPrinted) : (access .index nullSafe o k []).IsPrinted := by
  have hscans := (ho.scans_object hconst).index nullSafe hk.scans
  apply isPrinted_of_scans hscans
  · simp
  · rw [contents]

theorem isPrinted_list (hes : ∀ e ∈ es, e.IsPrinted) : (list es).IsPrinted := by
  have hitems : ∀ e ∈ es, Prints e.source.toList e.contents := fun e he =>
    IsPrinted.prints (hes e he)
  apply isPrinted_of_scans (scans_separated hitems '[' rfl)
  · simp [sources_eq_map, closing]
  · rw [contents, contentsOf_eq_map]

theorem prints_entry {p : Expr × Expr} (hkey : p.1.IsPrinted) (hvalue : p.2.IsPrinted) :
    Prints (entrySource p).toList (entryContents p) := by
  cases hconst : p.1.isConst with
  | true =>
    have hentry : (entrySource p).toList =
        p.1.source.toList ++ ':' :: ' ' :: p.2.source.toList := by
      simp [entrySource, hconst]
    rw [hentry, entryContents, if_pos hconst]
    exact (hkey.scans.entry hvalue.scans).prints
  | false =>
    have hentry : (entrySource p).toList =
        '(' :: (p.1.source.toList ++ [')']) ++ ':' :: ' ' :: p.2.source.toList := by
      simp [entrySource, hconst]
    rw [hentry, entryContents, if_neg (by simp [hconst])]
    exact ((hkey.scans.inBrackets '(' rfl).entry hvalue.scans).prints

theorem isPrinted_hash {es : List (Expr × Expr)} (hkeys : ∀ p ∈ es, p.1.IsPrinted)
    (hvalues : ∀ p ∈ es, p.2.IsPrinted) : (hash es).IsPrinted := by
  have hentries : ∀ p ∈ es, Prints (entrySource p).toList (entryContents p) := fun p hp =>
    prints_entry (hkeys p hp) (hvalues p hp)
  apply isPrinted_of_scans (scans_separated hentries '\x7b' rfl)
  · simp [entrySources_eq_map, closing]
  · rw [contents, entryContentsOf_eq_map]

theorem isPrinted_call {f : String} (hf : IsFreeName f) (has : ∀ a ∈ as, a.IsPrinted) :
    (call f as).IsPrinted := by
  have harguments : ∀ a ∈ as, Prints a.source.toList a.contents := fun a ha =>
    IsPrinted.prints (has a ha)
  have hscans := (scans_name hf.1 hf.2.1).arguments harguments
  apply isPrinted_of_scans hscans
  · simp [sources_eq_map]
  · simp [contentsOf_eq_map]

theorem isPrinted_of_isPlain (h : e.IsPlain fallbacks) : e.IsPrinted := by
  induction h with
  | const hv =>
    intro rest hname hnumber
    rw [source, contents]
    exact Value.prints_source hv rest ⟨hname, hnumber rfl⟩
  | name hn =>
    intro rest hname _
    rw [source, contents]
    exact reaches_name hn.1 (.inr hn.2.1) hname
  | unary op he ih => exact isPrinted_unary op he ih
  | binary op _ _ ihl ihr => exact isPrinted_binary op ihl ihr
  | conditional _ _ _ ihc ihy ihn => exact isPrinted_conditional ihc ihy ihn
  | coalesce _ _ _ ihl ihr => exact isPrinted_coalesce ihl ihr
  | property nullSafe _ hconst hmember ih => exact isPrinted_property nullSafe ih hconst hmember
  | method nullSafe _ hconst hmember _ ih ihas =>
    exact isPrinted_method nullSafe ih hconst hmember ihas
  | index nullSafe _ hconst _ ih ihk => exact isPrinted_index nullSafe ih hconst ihk
  | list _ ih => exact isPrinted_list ih
  | hash _ _ _ ihkeys ihvalues => exact isPrinted_hash ihkeys ihvalues
  | call hf _ ih => exact isPrinted_call hf ih

/-- The source of a tree has tokens, and they have the contents of the tree. -/
theorem tokenize_source (h : e.IsPlain fallbacks) :
    ∃ stream, tokenize e.source = .ok stream ∧
      (stream.current :: stream.after).map Token.content = e.contents ++ [Content.ending] := by
  have hend : endsName (([] : List Char).map normalize) = true := rfl
  have hreaches := isPrinted_of_isPlain h hend fun _ => rfl
  rw [List.append_nil] at hreaches
  exact tokenize_of_reaches hreaches

end Expr
end Formula
