import Formula.Proofs.Expr.Regrouping
import Formula.Proofs.Expr.Source
import Formula.Proofs.Parsing.Forms

/-! The source of a tree is read as the tree, as far as `??` does not part it. -/

namespace Formula

open Content (mark separated enclosed accessMark)

/-- Pieces of contents, one for each piece of a grouping. -/
def Grouping.Spelled (Is : List Content → Expr → Prop) (cs : List Content) : Grouping → Prop
  | closed e => Is cs e
  | parted l r => ∃ ls rs, cs = ls ++ mark "??" :: rs ∧ Is ls l ∧ Is rs r

theorem Grouping.Spelled.imp {Is Is' : List Content → Expr → Prop} (h : ∀ cs e, Is cs e → Is' cs e)
    {cs : List Content} {g : Grouping} (hg : g.Spelled Is cs) : g.Spelled Is' cs := by
  cases g with
  | closed e => exact h cs e hg
  | parted l r =>
    obtain ⟨ls, rs, rfl, hl, hr⟩ := hg
    exact ⟨ls, rs, rfl, h ls l hl, h rs r hr⟩

namespace Parsing

/-- The scope in which every name passes. -/
def lenient (functions : List String) : Scope := Scope.ofVariables functions (some []) ⟨true, true⟩

/-- Contents that are read as an operand at every level of nesting, but for its limit. -/
def Operand (scope : Scope) (cs : List Content) (e : Expr) : Prop :=
  ∀ levels, IsOperand True scope levels cs e

def Object (scope : Scope) (cs : List Content) (e : Expr) : Prop :=
  ∀ levels, IsObject True scope levels cs e

def Full (scope : Scope) (cs : List Content) (e : Expr) : Prop :=
  ∀ levels, IsFull True scope levels cs e

variable {scope : Scope} {cs ls rs suffix : List Content} {e l r : Expr} {g : Grouping}

theorem full_of_succ (h : ∀ levels, IsFull True scope (levels + 1) cs e) : Full scope cs e
  | 0 => fun _ _ _ => reads_expression_zero trivial scope 0
  | levels + 1 => h levels

theorem Operand.isTerm (h : Operand scope cs e) : ∀ levels, IsTerm True scope levels cs e
  | 0 => fun precedence _ _ _ _ _ => reads_expression_zero trivial scope precedence
  | levels + 1 => isTerm_of_isOperand (h levels)

theorem Operand.full (h : Operand scope cs e) : Full scope cs e :=
  full_of_succ fun levels => isFull_of_isChain (h levels).isChain

theorem Object.operand (h : Object scope cs e) : Operand scope cs e :=
  fun levels => (h levels).isOperand

theorem full_coalesce (hl : ∀ levels, IsChain True scope levels ls l) (hr : Full scope rs r) :
    Full scope (ls ++ mark "??" :: rs) (.coalesce l r) :=
  full_of_succ fun levels => isFull_coalesce (hl levels) (hr levels)

theorem full_of_spelled (h : g.Spelled (Operand scope) cs) : Full scope cs g.tree := by
  cases g with
  | closed e => exact h.full
  | parted l r =>
    obtain ⟨ls, rs, rfl, hl, hr⟩ := h
    exact full_coalesce (fun levels => (hl levels).isChain) hr.full

/-- An operator in front takes hold of the first piece. -/
theorem full_mapFirst (front : List Content) {f : Expr → Expr}
    (hf : ∀ {cs e}, Operand scope cs e → ∀ levels, IsChain True scope levels (front ++ cs) (f e))
    (h : g.Spelled (Operand scope) cs) : Full scope (front ++ cs) (g.mapFirst f).tree := by
  cases g with
  | closed e => exact full_of_succ fun levels => isFull_of_isChain (hf h levels)
  | parted l r =>
    obtain ⟨ls, rs, rfl, hl, hr⟩ := h
    rw [← List.append_assoc]
    exact full_coalesce (hf hl) hr.full

/-- What stands behind takes hold of the last piece. -/
theorem full_mapLast {f : Expr → Expr}
    (hf : ∀ {cs e}, Operand scope cs e → Full scope (cs ++ suffix) (f e))
    (h : g.Spelled (Operand scope) cs) : Full scope (cs ++ suffix) (g.mapLast f).tree := by
  cases g with
  | closed e => exact hf h
  | parted l r =>
    obtain ⟨ls, rs, rfl, hl, hr⟩ := h
    rw [List.append_assoc]
    exact full_coalesce (fun levels => (hl levels).isChain) (hf hr)

theorem spelled_mapLast {f : Expr → Expr}
    (hf : ∀ {cs e}, Object scope cs e → Object scope (cs ++ suffix) (f e))
    (h : g.Spelled (Object scope) cs) : (g.mapLast f).Spelled (Object scope) (cs ++ suffix) := by
  cases g with
  | closed e => exact hf h
  | parted l r =>
    obtain ⟨ls, rs, rfl, hl, hr⟩ := h
    exact ⟨ls, rs ++ suffix, by simp, hl, hf hr⟩

theorem begins_contents {fallbacks : Prop} (h : e.IsPlain fallbacks) : Begins e.contents := by
  induction h with
  | @const value _ =>
    have hkind : value.content.kind ≠ .punctuation := by
      cases value <;> simp [Value.content, Content.name]
    rw [Expr.contents]
    exact begins_of_kind hkind []
  | name | call =>
    rw [Expr.contents]
    exact begins_of_kind (by simp [Content.name]) _
  | unary | binary | conditional | list | hash =>
    rw [Expr.contents]
    exact begins_enclosed rfl _
  | coalesce =>
    rw [Expr.contents]
    exact (begins_enclosed rfl _).append _
  | property _ _ _ _ ih | method _ _ _ _ _ ih | index _ _ _ _ ih =>
    rw [Expr.contents]
    exact ih.append _

theorem atom?_content {value : Value} (h : value.IsPlain) (scope : Scope) :
    scope.atom? value.content = some (.const value false) := by
  cases value with
  | null | string | int => rfl
  | bool b => cases b <;> rfl
  | float | array | object | function => exact h.elim

section

variable {functions : List String} {fallbacks : Prop}

theorem spelled_of_object (h : e.grouping.Spelled (Object (lenient functions)) e.contents) :
    (e.isConst = false → e.grouping.Spelled (Object (lenient functions)) e.contents) ∧
      e.grouping.Spelled (Operand (lenient functions)) e.contents :=
  ⟨fun _ => h, h.imp fun _ _ => Object.operand⟩

/-- A key that is no constant is read in its parentheses. -/
theorem isEntry_contents {p : Expr × Expr} (hkey : p.1.IsKey) (hplain : p.1.IsPlain fallbacks)
    (hk : Full (lenient functions) p.1.contents p.1.regrouped)
    (hv : Full (lenient functions) p.2.contents p.2.regrouped) (levels : Nat) :
    IsEntry True (lenient functions) levels (Expr.entryContents p) (p.1.regrouped, p.2.regrouped) := by
  obtain ⟨k, v⟩ := p
  refine ⟨_, _, rfl, ?_, ?_, hv levels⟩
  · split
    · exact begins_contents hplain
    · exact begins_enclosed rfl _
  · cases hplain with
    | @const value _ =>
      cases value with
      | string s => exact isHashKey_token (.inl rfl)
      | int n => exact isHashKey_token (.inr (.inr rfl))
      | _ => exact hkey.elim
    | _ =>
      refine isHashKey_enclosed (Operand.full (fun levels => ?_) levels)
      exact (isObject_enclosed (hk levels)).isOperand

variable (functions) in
/-- The contents of a tree are read piece by piece as its grouping tells. -/
theorem spelled_grouping (h : e.IsPlain fallbacks) :
    (e.isConst = false → e.grouping.Spelled (Object (lenient functions)) e.contents) ∧
      e.grouping.Spelled (Operand (lenient functions)) e.contents := by
  induction h with
  | const hv =>
    refine ⟨nofun, ?_⟩
    rw [Expr.contents]
    exact fun levels => isOperand_atom (atom?_content hv _)
  | name hn =>
    apply spelled_of_object
    rw [Expr.contents]
    exact fun levels => isObject_name hn.2.2 rfl
  | unary op _ ih =>
    refine spelled_of_object fun levels => ?_
    rw [Expr.contents]
    refine isObject_enclosed (full_mapFirst [.operator op.symbol] ?_ ih.2 levels)
    exact fun h levels => isChain_unary op (h.isTerm levels)
  | @binary op l r _ _ ihl ihr =>
    refine spelled_of_object fun levels => ?_
    rw [Expr.contents]
    -- The operator stands between the last piece on its left and the first piece on its right.
    refine isObject_enclosed (full_mapLast (fun {cs l} hl => ?_) ihl.2 levels)
    have hright := full_mapFirst (cs ++ [.operator op.symbol]) (f := Expr.binary op l)
      (fun {cs' r} hr levels => ?_) ihr.2
    · rwa [List.append_assoc] at hright
    · rw [List.append_assoc]
      exact isChain_binary op (hl levels) (hr.isTerm levels)
  | @conditional c y n _ hy _ ihc ihy ihn =>
    refine spelled_of_object fun levels => ?_
    rw [Expr.contents]
    refine isObject_enclosed (full_mapLast (fun {cs c} hc => ?_) ihc.2 levels)
    refine full_of_succ fun levels => isFull_conditional (hc levels).isChain ?_ ?_ (begins_contents hy)
    · exact full_of_spelled ihy.2 levels
    · exact full_of_spelled ihn.2 levels
  | coalesce _ _ _ ihl ihr =>
    apply spelled_of_object
    rw [Expr.contents, Expr.grouping]
    refine ⟨_, _, rfl, fun levels => ?_, fun levels => ?_⟩
    · exact isObject_enclosed (full_of_spelled ihl.2 levels)
    · exact isObject_enclosed (full_of_spelled ihr.2 levels)
  | property nullSafe _ hconst _ ih =>
    apply spelled_of_object
    rw [Expr.contents, Expr.contents, Expr.grouping]
    exact spelled_mapLast (fun h levels => isObject_property (h levels) nullSafe _) (ih.1 hconst)
  | @method nullSafe o member as _ hconst _ has ih ihas =>
    apply spelled_of_object
    rw [Expr.contents, Expr.contents, Expr.grouping, Expr.contentsOf_eq_map, Expr.regroupedAll_eq_map]
    refine spelled_mapLast (fun h levels => ?_) (ih.1 hconst)
    exact isObject_method (h levels) nullSafe member
      (fun a ha => (full_of_spelled (ihas a ha).2 levels).isElement)
      fun a ha => begins_contents (has a ha)
  | index nullSafe _ hconst _ ih ihk =>
    apply spelled_of_object
    rw [Expr.contents, Expr.grouping]
    refine spelled_mapLast (fun h levels => ?_) (ih.1 hconst)
    exact isObject_index (h levels) nullSafe (full_of_spelled ihk.2 levels)
  | list hes ih =>
    refine spelled_of_object fun levels => ?_
    rw [Expr.contents, Expr.contentsOf_eq_map, Expr.regroupedAll_eq_map]
    exact isObject_list (fun e he => (full_of_spelled (ih e he).2 levels).isElement)
      fun e he => begins_contents (hes e he)
  | hash hkeys hks hvs ihkeys ihvalues =>
    refine spelled_of_object fun levels => ?_
    rw [Expr.contents, Expr.entryContentsOf_eq_map, Expr.regroupedEntries_eq_map]
    refine isObject_hash fun p hp => isEntry_contents (hkeys p hp) (hks p hp) ?_ ?_ levels
    · exact full_of_spelled (ihkeys p hp).2
    · exact full_of_spelled (ihvalues p hp).2
  | call hf has ih =>
    refine spelled_of_object fun levels => ?_
    rw [Expr.contents, Expr.contentsOf_eq_map, Expr.regroupedAll_eq_map]
    exact isObject_call hf.2.2 (Bool.or_true _)
      (fun a ha => (full_of_spelled (ih a ha).2 levels).isElement)
      fun a ha => begins_contents (has a ha)

/-- The source of a tree has tokens, and under a scope that lets every name pass they are read as the
regrouped tree, if that is not nested too deeply. -/
theorem parseTokens_source (h : e.IsPlain fallbacks) (functions : List String) :
    ∃ stream, tokenize e.source = .ok stream ∧
      (parseTokens (lenient functions) stream = .ok e.regrouped ∨
        ∃ error, parseTokens (lenient functions) stream = .error error ∧
          error.fault = .nestedTooDeeply) := by
  obtain ⟨stream, htokens, hcontents⟩ := Expr.tokenize_source h
  refine ⟨stream, htokens, ?_⟩
  have hfull := full_of_spelled (spelled_grouping functions h).2 maxNesting
  have hlast : Content.ending = (Token.ending 0).content := rfl
  rw [hlast] at hcontents
  have hread := hfull (Token.ending 0).content [] (Content.goesOn_of_ending rfl)
  exact (parseTokens_of_reads hcontents rfl hread).imp id fun h => h.2

end

end Parsing
end Formula
