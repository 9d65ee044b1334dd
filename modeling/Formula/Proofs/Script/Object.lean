import Mathlib
import Formula.Evaluation
import Formula.Proofs.Parsing.Object
import Formula.Proofs.Script.Surface

/-! The script of the object of an access step is one operand, to which the step belongs as a whole. -/

namespace Formula

namespace Script

variable {functions : Registry}

/-- A node that calls no function with a script of its own. -/
def IsUnregistered (functions : Registry) : Expr → Prop
  | .call name _ => functions.get? name = none
  | _ => True

mutual

/-- Functions that are not called do not matter. -/
theorem ofExpr_of_unregistered (chained : Bool) : ∀ e : Expr,
    (∀ d ∈ e.nodes, IsUnregistered functions d) →
      ofExpr functions chained e = ofExpr {} chained e
  | .const _ _, _ | .name _, _ | .coalescedName _, _ => by simp only [ofExpr]
  | .unary op e, h => by
    obtain ⟨-, he⟩ := Expr.forall_mem_nodes_unary.mp h
    simp only [ofExpr, ofExpr_of_unregistered false e he]
  | .binary op left right, h => by
    obtain ⟨-, hl, hr⟩ := Expr.forall_mem_nodes_binary.mp h
    have hleft := ofExpr_of_unregistered false left hl
    have hright := ofExpr_of_unregistered false right hr
    simp only [ofExpr, hleft, hright]
  | .conditional condition yes no, h => by
    obtain ⟨-, hc, hy, hn⟩ := Expr.forall_mem_nodes_conditional.mp h
    have hcondition := ofExpr_of_unregistered false condition hc
    have hyes := ofExpr_of_unregistered false yes hy
    have hno := ofExpr_of_unregistered false no hn
    simp only [ofExpr, hcondition, hyes, hno]
  | .coalesce left fallback, h => by
    obtain ⟨-, hl, hf⟩ := Expr.forall_mem_nodes_coalesce.mp h
    have hleft := ofExpr_of_unregistered true left hl
    have hfallback := ofExpr_of_unregistered false fallback hf
    simp only [ofExpr, hleft, hfallback]
  | .access kind nullSafe object key arguments, h => by
    obtain ⟨-, ho, hk, has⟩ := Expr.forall_mem_nodes_access.mp h
    have hobject := ofExpr_of_unregistered chained object ho
    have hkey := ofExpr_of_unregistered false key hk
    have harguments := ofExprs_of_unregistered arguments has
    simp only [ofExpr, hobject, hkey, harguments]
  | .list items, h => by
    obtain ⟨-, hes⟩ := Expr.forall_mem_nodes_list.mp h
    simp only [ofExpr, ofExprs_of_unregistered items hes]
  | .hash entries, h => by
    obtain ⟨-, hes⟩ := Expr.forall_mem_nodes_hash.mp h
    simp only [ofExpr, ofEntries_of_unregistered entries hes]
  | .call name arguments, h => by
    obtain ⟨hcall, has⟩ := Expr.forall_mem_nodes_call.mp h
    have harguments := ofExprs_of_unregistered arguments has
    have hname : functions.get? name = none := hcall
    have hempty : Registry.get? {} name = none := rfl
    simp only [ofExpr, call, harguments, hname, hempty]

theorem ofExprs_of_unregistered : ∀ es : List Expr,
    (∀ d ∈ Expr.nodesOf es, IsUnregistered functions d) → ofExprs functions es = ofExprs {} es
  | [], _ => by simp only [ofExprs]
  | e :: es, h => by
    obtain ⟨he, hes⟩ := Expr.forall_mem_nodesOf_cons.mp h
    have hhead := ofExpr_of_unregistered false e he
    have htail := ofExprs_of_unregistered es hes
    simp only [ofExprs, hhead, htail]

theorem ofEntries_of_unregistered : ∀ entries : List (Expr × Expr),
    (∀ d ∈ Expr.nodesOfEntries entries, IsUnregistered functions d) →
      ofEntries functions entries = ofEntries {} entries
  | [], _ => by simp only [ofEntries]
  | (key, value) :: entries, h => by
    obtain ⟨hk, hv, hes⟩ := Expr.forall_mem_nodesOfEntries_cons.mp h
    have hkey := ofExpr_of_unregistered false key hk
    have hvalue := ofExpr_of_unregistered false value hv
    have htail := ofEntries_of_unregistered entries hes
    simp only [ofEntries, hkey, hvalue, htail]

end

/-- A name that JavaScript reads as one word. -/
def IsWord (name : String) : Prop := ∀ c ∈ name.toList, isWordChar c = true

instance (name : String) : Decidable (IsWord name) :=
  List.decidableBAll (isWordChar · = true) name.toList

/-- A word that is no operator. -/
def IsReference (name : String) : Prop := IsWord name ∧ name ∉ operatorWords

end Script

open Script (IsReference IsWord)

/-- A number is an operand if it does not end where a point would be part of it. -/
def Value.IsOperand : Value → Prop
  | .int _ => False
  | .float x => Number.text x = "Infinity" ∨
    ((Number.text x).toList.head?.any Char.isDigit = true ∧
      ∃ c ∈ (Number.text x).toList, c.isDigit = false)
  | _ => True

/-- Trees whose script is one operand. Parentheses around a tree do not stand in its script. -/
def Expr.IsOperand : Expr → Prop
  | .const value _ => value.IsOperand
  | .name n | .call n _ => IsReference n
  | .binary op _ _ => op ≠ .notIn
  | .access .index _ object _ _ => object.IsOperand
  | .access _ _ object key _ => object.IsOperand ∧ IsWord (Evaluation.memberName key)
  | _ => True

namespace Script

open Lexer (isOpening isClosing closing isNameChar)

theorem isInert_of_isWordChar {c : Char} (h : isWordChar c = true) : IsInert c := by
  simp only [isWordChar, Bool.and_eq_true, Bool.or_eq_true, beq_iff_eq] at h
  rcases h.1 with hname | rfl
  · exact isInert_of_isNameChar hname
  · decide

theorem IsWord.isInert {name : String} (h : IsWord name) : ∀ c ∈ name.toList, IsInert c :=
  fun c hc => isInert_of_isWordChar (h c hc)

section Texts

variable {text inner top arguments : List Char} {name : String} {opening : Char}

theorem isObject_of_shows (h : Shows text top) (htop : hasOperator false [] top = false)
    (hdigit : ∃ c ∈ text, c.isDigit = false) : IsObject text := ⟨⟨top, h, htop⟩, hdigit⟩

theorem isObject_brackets (opening : Char) (hopen : isOpening opening = true) (h : IsSealed inner) :
    IsObject (opening :: (inner ++ [closing opening])) := by
  refine isObject_of_shows (h.shows hopen) (continues_brackets hopen false [] rfl) ?_
  refine ⟨opening, List.mem_cons_self, ?_⟩
  simp only [isOpening, Bool.or_eq_true, beq_iff_eq] at hopen
  rcases hopen with (rfl | rfl) | rfl <;> rfl

theorem shows_applied (hname : ∀ c ∈ name.toList, IsInert c) (h : IsSealed arguments) :
    Shows (name.toList ++ '(' :: (arguments ++ [')'])) (name.toList ++ ['(', ')']) :=
  (shows_inert hname).append (h.shows rfl)

theorem isObject_applied (hname : ∀ c ∈ name.toList, IsInert c)
    (hword : hasOperator false [] name.toList = false) (h : IsSealed arguments) :
    IsObject (name.toList ++ '(' :: (arguments ++ [')'])) :=
  isObject_of_shows (shows_applied hname h) (hasOperator_append hword (continues_brackets rfl))
    ⟨'(', by simp, rfl⟩

theorem shows_dot (h : Shows text top) : Shows ('.' :: text) ('.' :: top) :=
  (shows_inert (show ∀ c ∈ ['.'], IsInert c by decide)).append h

theorem shows_method (hname : IsWord name) (h : IsSealed arguments) :
    Shows ('.' :: (name.toList ++ '(' :: (arguments ++ [')']))) ('.' :: (name.toList ++ ['(', ')'])) :=
  shows_dot (shows_applied hname.isInert h)

theorem continues_method (hname : IsWord name) : Continues ('.' :: (name.toList ++ ['(', ')'])) :=
  (continues_member hname).append (continues_brackets rfl)

theorem IsObject.dot (h : IsObject text) (optional : Bool) (hshows : Shows inner top)
    (htop : Continues ('.' :: top)) :
    IsObject (text ++ ((if optional = true then "?." else ".").toList ++ inner)) := by
  cases optional with
  | true =>
    have hmark : Shows ['?'] ['?'] := shows_inert (by decide)
    exact h.append (hmark.append (shows_dot hshows)) htop.optional
  | false => exact h.append (shows_dot hshows) htop

theorem IsObject.index (h : IsObject text) (optional : Bool) (hkey : IsSealed inner) :
    IsObject (text ++ ((if optional = true then "?.[" else "[").toList ++ (inner ++ [']']))) := by
  have hshows : Shows ('[' :: (inner ++ [']'])) ['[', ']'] := hkey.shows rfl
  have hbrackets : Continues ['[', ']'] := continues_brackets (show isOpening '[' = true from rfl)
  cases optional with
  | true => exact h.dot true hshows hbrackets.dot
  | false => exact h.append hshows hbrackets

theorem IsObject.method (h : IsObject text) (name : String) (hname : IsWord name)
    (harguments : IsSealed arguments) :
    IsObject (text ++ '.' :: (name.toList ++ '(' :: (arguments ++ [')']))) :=
  h.append (shows_method hname harguments) (continues_method hname)

end Texts

section Forms

variable {left right : String}

theorem isObject_lowered (h : IsSealed left.toList) : IsObject (lowered left).toList := by
  have hempty : IsSealed [] := ⟨[], .nil⟩
  have hstring : IsObject ("String".toList ++ '(' :: (left.toList ++ [')'])) :=
    isObject_applied (by decide) (by decide) h
  simpa [lowered] using hstring.method "toLowerCase" (by decide) hempty

theorem isObject_binary {op : BinaryOp} (literal? : Option String) (hop : op ≠ .notIn)
    (hl : IsSealed left.toList) (hr : IsSealed right.toList) :
    IsObject (binary op left right literal?).toList := by
  have hopen : isOpening '(' = true := rfl
  refine binary_forms literal? hop hl hr ?_ ?_ ?_ ?_
  · exact fun inner => isObject_brackets '(' hopen
  · have hnames : ∀ name ∈ ["Math.pow", "range", "includes"],
        (∀ c ∈ name.toList, IsInert c) ∧ hasOperator false [] name.toList = false := by decide
    exact fun name hname arguments => isObject_applied (hnames name hname).1 (hnames name hname).2
  · intro inner arguments hinner harguments
    have hmatcher : IsObject ('(' :: (inner ++ [')'])) := isObject_brackets '(' hopen hinner
    exact hmatcher.append (harguments.shows hopen) (continues_brackets hopen)
  · have hnames : ∀ name ∈ ["includes", "startsWith", "endsWith"], IsWord name := by decide
    exact fun name hname =>
      (isObject_lowered hl).method name (hnames name hname) (isSealed_lowered hr)

end Forms

section Trees

variable {functions : Registry} {chained : Bool} {o k : Expr} {as : List Expr}

theorem isObject_property (nullSafe : Bool) {member : String} (h : IsWord member)
    (ho : IsObject (ofExpr functions chained o).toList) :
    IsObject
      (ofExpr functions chained (.access .property nullSafe o (.identifier member) [])).toList := by
  have hstep := ho.dot (nullSafe || chained && isChainObject o) (shows_inert h.isInert)
    (continues_member h)
  simpa [ofExpr, Expr.identifier, ofConstant, Value.text] using hstep

theorem isObject_method (nullSafe : Bool) {member : String} (h : IsWord member)
    (ho : IsObject (ofExpr functions chained o).toList)
    (has : ∀ a ∈ as, IsSealedExpr functions a) :
    IsObject
      (ofExpr functions chained (.access .method nullSafe o (.identifier member) as)).toList := by
  have hstep := ho.dot (nullSafe || chained && isChainObject o)
    (shows_applied h.isInert (isSealed_ofExprs has)) (continues_method h)
  simpa [ofExpr, Expr.identifier, ofConstant, Value.text] using hstep

theorem isObject_index (nullSafe : Bool) (ho : IsObject (ofExpr functions chained o).toList)
    (hk : IsSealedExpr functions k) :
    IsObject (ofExpr functions chained (.access .index nullSafe o k [])).toList := by
  have hstep := ho.index (nullSafe || chained && isChainObject o) (hk false)
  simpa [ofExpr] using hstep

end Trees

variable {scope : Scope} {e : Expr}

theorem isObject_const {c : Content} (hc : c.IsScanned)
    (hkind : c.kind = .string ∨ c.kind = .name ∨ c.kind = .number) (h : c.value.IsOperand) :
    IsObject (ofValue c.value).toList := by
  have hquoted (s : String) : IsObject (quoted s).toList :=
    isObject_of_shows (shows_quoted s) (by decide) ⟨'"', by simp [quoted], rfl⟩
  cases hc with
  | name | string => exact hquoted _
  | int => exact h.elim
  | float x =>
    rcases h with hinfinity | ⟨hdigit, hpoint⟩
    · show IsObject (Number.text x).toList
      rw [hinfinity]
      exact isObject_of_shows (shows_inert (by decide)) (by decide) ⟨'I', by decide, rfl⟩
    · exact isObject_of_shows (shows_inert (isInert_number x)) (hasOperator_number hdigit) hpoint
  | operator | mark | ending => simp_all [Content.operator, Content.mark, Content.ending]

theorem hasOperator_reference {name : String} (h : IsReference name) :
    hasOperator false [] name.toList = false := by
  rw [hasOperator_of_word h.1, isOperatorWord, String.ofList_toList]
  simpa using h.2

theorem isObject_name {name : String} (hname : Parsing.isIdentifier name = true)
    (h : IsReference name) : IsObject name.toList := by
  refine isObject_of_shows (shows_inert h.1.isInert) (hasOperator_reference h) ?_
  obtain ⟨c, cs, hlist, hc, -⟩ := Lexer.toList_of_isIdentifier hname
  rw [hlist]
  exact ⟨c, List.mem_cons_self, Lexer.isDigit_of_isNameStart hc⟩

theorem isObject_constant {name : String} {v : Value} (h : Parsing.constant? name = some v) :
    IsObject (ofValue v).toList := by
  have hword : ∀ word ∈ ["true", "false", "null"], IsObject word.toList := by
    intro word hword
    have hname : ∀ word ∈ ["true", "false", "null"],
        Parsing.isIdentifier word = true ∧ IsWord word ∧ word ∉ operatorWords := by decide
    exact isObject_name (hname word hword).1 (hname word hword).2
  unfold Parsing.constant? at h
  split at h <;> cases h
  · exact hword "true" (by simp)
  · exact hword "true" (by simp)
  · exact hword "false" (by simp)
  · exact hword "false" (by simp)
  · exact hword "null" (by simp)
  · exact hword "null" (by simp)

/-- A tree that was read from text is compiled to an operand, unless it is a whole number, a negated
membership or a word that means something else. -/
theorem isObject_of_isBuilt
    (hkey : ∀ n, Parsing.isIdentifier n = true → Parsing.isIdentifier (scope.key n) = true)
    (h : e.IsBuilt scope Content.IsScanned) (hnodes : ∀ d ∈ e.nodes, d.HasObject)
    (hknown : e.isCoalescedName = false) (hoperand : e.IsOperand) (chained : Bool) :
    IsObject (ofExpr {} chained e).toList := by
  have hidentifier {c : Content} (hc : c.IsScanned) (hkind : c.kind = .name) :
      Parsing.isIdentifier c.text = true := by
    obtain ⟨n, rfl, hn⟩ := exists_name_of_isScanned hc hkind
    exact hn
  have hsealed {e : Expr} (h : e.IsBuilt scope Content.IsScanned) : IsSealedExpr {} e :=
    isSealed_of_isBuilt (fun _ _ hget => absurd hget (by simp [Registry.get?, Dict.get?])) hkey h
  induction h generalizing chained with
  | literal hc hkind =>
    rw [Expr.literal, ofExpr, ofConstant]
    exact isObject_const hc hkind hoperand
  | constant hv =>
    rw [Expr.literal, ofExpr, ofConstant]
    exact isObject_constant hv
  | name hc hkind =>
    rw [ofExpr]
    exact isObject_name (hkey _ (hidentifier hc hkind)) hoperand
  | coalescedName => cases hknown
  | unary op he =>
    have hop : IsSealed op.script.toList := isSealed_inert (by cases op <;> decide)
    simpa [ofExpr, closing] using isObject_brackets '(' rfl (hop.append (hsealed he false))
  | binary op hl hr =>
    rw [ofExpr]
    exact isObject_binary _ hoperand (hsealed hl false) (hsealed hr false)
  | conditional hc hy hn =>
    have hquestion : IsSealed " ? ".toList := isSealed_inert (by decide)
    have hcolon : IsSealed " : ".toList := isSealed_inert (by decide)
    have hbranches := ((hsealed hy false).inBrackets '(' rfl).append
      (hcolon.append ((hsealed hn false).inBrackets '(' rfl))
    have hinner := ((hsealed hc false).inBrackets '(' rfl).append (hquestion.append hbranches)
    simpa [ofExpr, closing] using isObject_brackets '(' rfl hinner
  | coalesce hl hr =>
    have hsymbol : IsSealed " ?? ".toList := isSealed_inert (by decide)
    have hinner := ((hsealed hl true).inBrackets '(' rfl).append
      (hsymbol.append ((hsealed hr false).inBrackets '(' rfl))
    simpa [ofExpr, closing] using isObject_brackets '(' rfl hinner
  | property nullSafe ho hc hmember iho =>
    obtain ⟨hknown, hobject, -⟩ := Expr.forall_mem_nodes_access.mp hnodes
    exact isObject_property nullSafe hoperand.2 (iho hobject hknown hoperand.1 chained)
  | method nullSafe ho hc hmember has iho =>
    obtain ⟨hknown, hobject, -⟩ := Expr.forall_mem_nodes_access.mp hnodes
    exact isObject_method nullSafe hoperand.2 (iho hobject hknown hoperand.1 chained)
      fun a ha => hsealed (has a ha)
  | index nullSafe ho hk iho =>
    obtain ⟨hknown, hobject, -⟩ := Expr.forall_mem_nodes_access.mp hnodes
    exact isObject_index nullSafe (iho hobject hknown hoperand chained) (hsealed hk)
  | list hes =>
    have hitems := isSealed_ofExprs fun e he => hsealed (hes e he)
    simpa [ofExpr, closing] using isObject_brackets '[' rfl hitems
  | hash hkeys hvalues =>
    have hentries := isSealed_ofEntries (fun p hp => hsealed (hkeys p hp))
      fun p hp => hsealed (hvalues p hp)
    simpa [ofExpr, closing] using isObject_brackets '{' rfl hentries
  | @call c as hc hkind _ has =>
    have hname : IsReference c.text := hoperand
    have harguments := isSealed_ofExprs fun a ha => hsealed (has a ha)
    have hcall := isObject_applied hname.1.isInert (hasOperator_reference hname) harguments
    have hget : Registry.get? {} c.text = none := rfl
    simpa [ofExpr, call, hget] using hcall

/-- In the script of a text that calls no registered function, an access step behind an operand is a
step of the whole operand. -/
theorem isWhole_object {text : String} {tree : Expr} {functions : Registry}
    (hkey : ∀ n, Parsing.isIdentifier n = true → Parsing.isIdentifier (scope.key n) = true)
    (hparse : parseText scope text = .ok tree)
    (hcalls : ∀ d ∈ tree.nodes, IsUnregistered functions d)
    {kind : AccessKind} {nullSafe : Bool} {object key : Expr} {arguments : List Expr}
    (hnode : .access kind nullSafe object key arguments ∈ tree.nodes) (hoperand : object.IsOperand)
    (chained : Bool) : isWhole (ofExpr functions chained object) = true := by
  have hhas := Parsing.hasObject_of_parseText hparse
  have hbuilt : (Expr.access kind nullSafe object key arguments).IsBuilt scope Content.IsScanned := by
    obtain hbuilt | ⟨n, hn⟩ := (Parsing.isBuilt_of_parseText hparse).of_mem_nodes _ hnode
    · exact hbuilt
    · cases hn
  have hobject : object.IsBuilt scope Content.IsScanned := by
    cases hbuilt <;> assumption
  have hwithin {P : Expr → Prop} (h : ∀ d ∈ tree.nodes, P d) : ∀ d ∈ object.nodes, P d := by
    have hparts := Expr.forall_nodes_of_mem_nodes tree h _ hnode
    exact (Expr.forall_mem_nodes_access.mp hparts).2.1
  rw [ofExpr_of_unregistered chained object (hwithin hcalls)]
  exact (isObject_of_isBuilt hkey hobject (hwithin hhas) (hhas _ hnode) hoperand chained).isWhole

/-- In `(a ~ "b").c["d"]` both steps are steps of all that stands before them. -/
theorem isWhole_object_concat :
    let functions := Registry.withBuiltins none
    let scope := Scope.ofVariables functions.names (some [.plain "a"]) {}
    let sum : Expr := .binary .concat (.name "a") (.literal (.string "b"))
    let member : Expr := .access .property false sum (.identifier "c") []
    let tree : Expr := .access .index false member (.literal (.string "d")) []
    parseText scope "(a ~ \"b\").c[\"d\"]" = .ok tree ∧
    tree.script functions = "(\"\" + a + \"b\").c[\"d\"]" ∧
    isWhole (ofExpr functions false sum) = true ∧ isWhole (ofExpr functions false member) = true := by
  intro functions scope sum member tree
  have hparse : parseText scope "(a ~ \"b\").c[\"d\"]" = .ok tree := by cbv
  have hkey : ∀ n, Parsing.isIdentifier n = true → Parsing.isIdentifier (scope.key n) = true :=
    fun n hn => hn
  have hnodes : tree.nodes = [tree, member, sum, .name "a", .literal (.string "b"), .identifier "c",
      .literal (.string "d")] := rfl
  have hcalls : ∀ d ∈ tree.nodes, IsUnregistered functions d := by
    rw [hnodes]
    simp [IsUnregistered, tree, member, sum, Expr.literal, Expr.identifier]
  have htree : .access .index false member (.literal (.string "d")) [] ∈ tree.nodes := by
    rw [hnodes]
    exact List.mem_cons_self
  have hmember : .access .property false sum (.identifier "c") [] ∈ tree.nodes := by
    rw [hnodes]
    exact List.mem_cons_of_mem _ List.mem_cons_self
  have hsum : sum.IsOperand := show BinaryOp.concat ≠ .notIn by decide
  have hword : IsWord "c" := by decide
  exact ⟨hparse, by cbv, isWhole_object hkey hparse hcalls hmember hsum false,
    isWhole_object hkey hparse hcalls htree ⟨hsum, hword⟩ false⟩

/-- In the script of `(a not in b).c` the property is negated, and in that of `(1).c` the dot is a
point. -/
theorem not_isWhole_notIn :
    let scope := Scope.ofVariables (Registry.withBuiltins none).names (some [.plain "a", .plain "b"]) {}
    let object : Expr := .binary .notIn (.name "a") (.name "b")
    parseText scope "(a not in b).c" = .ok (.access .property false object (.identifier "c") []) ∧
    (Expr.access .property false object (.identifier "c") []).script (Registry.withBuiltins none) =
      "!includes(a, b).c" ∧
    isWhole (ofExpr (Registry.withBuiltins none) false object) = false ∧
    isWhole (ofExpr (Registry.withBuiltins none) false (.literal (.int 1))) = false := by
  intro scope object
  exact ⟨by cbv, by cbv, by cbv, by cbv⟩

end Script
end Formula
