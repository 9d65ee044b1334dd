import Mathlib
import Formula.Proofs.Cache.Key
import Formula.Proofs.Parsing.Building
import Formula.Proofs.Parsing.Declarations
import Formula.Proofs.Script.Sealing
import Formula.Proofs.Text.Segments

/-! No text of an expression gets out of the literals of its script. -/

namespace Formula

open Lexer (isNameChar forall_ne_of_all closing)

namespace Script

theorem isInert_of_isNameChar {c : Char} (h : isNameChar c = true) : IsInert c := by
  have hne := forall_ne_of_all h (show ['"', '\'', '`', '\\', '/', '(', ')', '[', ']', '{', '}'].all
    (!isNameChar ·) = true by decide)
  exact fun hc => hne c hc rfl

theorem isInert_of_isDigit {c : Char} (h : c.isDigit = true) : IsInert c :=
  isInert_of_isNameChar (by simp [isNameChar, h])

theorem isSealed_name {name : String} (h : Parsing.isIdentifier name = true) :
    IsSealed name.toList := by
  obtain ⟨c, cs, hlist, hc, hcs⟩ := Lexer.toList_of_isIdentifier h
  have hchars : ∀ x ∈ c :: cs, isNameChar x = true :=
    List.forall_mem_cons.mpr ⟨by simp [isNameChar, hc], hcs⟩
  rw [hlist]
  exact isSealed_inert fun x hx => isInert_of_isNameChar (hchars x hx)

section Numbers

variable {digits : List Char} (h : ∀ c ∈ digits, IsInert c)

theorem isInert_toDigits (n : Nat) : ∀ c ∈ Nat.toDigits 10 n, IsInert c := fun _ hc =>
  isInert_of_isDigit (Nat.isDigit_of_mem_toDigits (by decide) (by decide) hc)

theorem toList_toString_ofNat (n : Nat) : (toString (Int.ofNat n)).toList = Nat.toDigits 10 n :=
  Nat.toList_repr

theorem toList_toString_negSucc (n : Nat) :
    (toString (Int.negSucc n)).toList = '-' :: Nat.toDigits 10 (n + 1) := by
  change ("-" ++ Nat.repr (n + 1)).toList = _
  rw [String.toList_append, Nat.toList_repr]
  rfl

theorem isInert_toString (n : Int) : ∀ c ∈ (toString n).toList, IsInert c := by
  cases n with
  | ofNat n =>
    rw [toList_toString_ofNat]
    exact isInert_toDigits n
  | negSucc n =>
    rw [toList_toString_negSucc, List.forall_mem_cons]
    exact ⟨by decide, isInert_toDigits (n + 1)⟩

include h

theorem isInert_positional (exponent : Int) :
    ∀ c ∈ Number.positional digits exponent, IsInert c := by
  have hzeros (n : Nat) : ∀ c ∈ List.replicate n '0', IsInert c := by
    intro c hc
    rw [List.eq_of_mem_replicate hc]
    decide
  unfold Number.positional
  split
  · rw [List.forall_mem_cons, List.forall_mem_cons, List.forall_mem_append]
    exact ⟨by decide, by decide, hzeros _, h⟩
  · dsimp only
    split
    · rw [List.forall_mem_append]
      exact ⟨h, hzeros _⟩
    · rw [List.forall_mem_append, List.forall_mem_cons]
      exact ⟨fun c hc => h c (List.mem_of_mem_take hc), by decide,
        fun c hc => h c (List.mem_of_mem_drop hc)⟩

theorem isInert_scientific (exponent : Int) :
    ∀ c ∈ Number.scientific digits exponent, IsInert c := by
  unfold Number.scientific
  simp only [List.forall_mem_append, List.forall_mem_cons]
  refine ⟨?_, by decide, ?_, isInert_toDigits _⟩
  · split
    · simp only [List.forall_mem_cons] at h ⊢
      exact ⟨h.1, by decide, h.2⟩
    · exact h
  · split <;> decide

omit h

theorem isInert_digits (d : Number.Decimal) : ∀ c ∈ d.digits.1, IsInert c := by
  intro c hc
  rw [Number.Decimal.digits, List.mem_reverse] at hc
  have hmem := (List.dropWhile_sublist _).mem hc
  exact isInert_toDigits _ c (List.mem_reverse.mp hmem)

theorem isInert_signed (negative : Bool) (h : ∀ c ∈ digits, IsInert c) :
    ∀ c ∈ (Number.signed negative digits).toList, IsInert c := by
  rw [Number.signed, String.toList_ofList]
  split
  · exact List.forall_mem_cons.mpr ⟨by decide, h⟩
  · exact h

theorem isInert_number (x : Float) : ∀ c ∈ (Number.text x).toList, IsInert c := by
  unfold Number.text
  split
  · decide
  · split
    · split <;> decide
    · split
      · exact isInert_toString _
      · refine isInert_signed _ ?_
        split
        · exact isInert_positional (isInert_digits _) _
        · exact isInert_scientific (isInert_digits _) _

end Numbers

mutual

theorem isSealed_ofValue : ∀ v : Value, IsSealed (ofValue v).toList
  | .null | .function _ => show IsSealed "null".toList from isSealed_inert (by decide)
  | .bool b => by cases b <;> exact isSealed_inert (by decide)
  | .int n => isSealed_inert (isInert_toString n.toInt)
  | .float x => isSealed_inert (isInert_number x)
  | .string s => isSealed_quoted s
  | .array items => by
    have htext : (ofValue (.array items)).toList =
        '[' :: ((String.intercalate ", " (ofItems items)).toList ++ [closing '[']) := by
      simp [ofValue, closing]
    rw [htext]
    exact (isSealed_separated (isSealed_ofItems items)).inBrackets '[' rfl
  | .object fields => by
    have htext : (ofValue (.object fields)).toList =
        '{' :: ((String.intercalate ", " (ofFields fields)).toList ++ [closing '{']) := by
      simp [ofValue, closing]
    rw [htext]
    exact (isSealed_separated (isSealed_ofFields fields)).inBrackets '{' rfl

theorem isSealed_ofItems : ∀ items : List Value, ∀ text ∈ ofItems items, IsSealed text.toList
  | [] => nofun
  | item :: items => by
    rw [ofItems, List.forall_mem_cons]
    exact ⟨isSealed_ofValue item, isSealed_ofItems items⟩

theorem isSealed_ofFields :
    ∀ fields : List (String × Value), ∀ text ∈ ofFields fields, IsSealed text.toList
  | [] => nofun
  | (key, value) :: fields => by
    rw [ofFields, List.forall_mem_cons]
    refine ⟨?_, isSealed_ofFields fields⟩
    rw [String.toList_append, String.toList_append]
    have hcolon : IsSealed ": ".toList := isSealed_inert (by decide)
    exact ((isSealed_quoted key).append hcolon).append (isSealed_ofValue value)

end

variable {text left right : String}

theorem isSealed_pattern (literal? : Option String) (h : IsSealed text.toList) :
    IsSealed (pattern literal? text).toList := by
  have hhelper : IsSealed "toRegExp".toList := isSealed_inert (by decide)
  have hclass : IsSealed "new RegExp".toList := isSealed_inert (by decide)
  unfold pattern
  split
  · simpa using h.applied hhelper
  · split
    · rename_i body flags _
      have hbody := isSealed_quoted (String.ofList body)
      have hflags := isSealed_quoted (String.ofList flags)
      simpa using (hbody.comma hflags).applied hclass
    · simpa using (isSealed_quoted _).applied hhelper

theorem isSealed_lowered (h : IsSealed text.toList) : IsSealed (lowered text).toList := by
  have hhelper : IsSealed "String".toList := isSealed_inert (by decide)
  have hmethod : IsSealed ".toLowerCase".toList := isSealed_inert (by decide)
  have hempty : IsSealed [] := isSealed_inert nofun
  simpa [lowered] using (h.applied hhelper).append (hempty.applied hmethod)

theorem isSealed_symbol {op : BinaryOp} {symbol : String} (h : op.script? = some symbol) :
    IsSealed (' ' :: (symbol.toList ++ [' '])) := by
  cases op <;> cases h <;> first
    | exact isSealed_inert (by decide)
    | exact ⟨_, .inert (by decide) (.division .nil)⟩

/-- The forms of the script of a binary operator, for any property that a script has by its form. Only
`not in` stands in front of a form, without parentheses of its own. -/
theorem binary_forms {P : List Char → Prop} {op : BinaryOp} (literal? : Option String)
    (hop : op ≠ .notIn) (hl : IsSealed left.toList) (hr : IsSealed right.toList)
    (hbrackets : ∀ inner, IsSealed inner → P ('(' :: (inner ++ [')'])))
    (happlied : ∀ name ∈ ["Math.pow", "range", "includes"], ∀ arguments, IsSealed arguments →
      P (name.toList ++ '(' :: (arguments ++ [')'])))
    (hmatcher : ∀ inner arguments, IsSealed inner → IsSealed arguments →
      P ('(' :: (inner ++ [')']) ++ '(' :: (arguments ++ [')'])))
    (hmethod : ∀ name ∈ ["includes", "startsWith", "endsWith"],
      P ((lowered left).toList ++ '.' :: (name.toList ++ '(' :: ((lowered right).toList ++ [')'])))) :
    P (binary op left right literal?).toList := by
  have hinert (s : String) (hs : ∀ c ∈ s.toList, IsInert c) : IsSealed s.toList := isSealed_inert hs
  unfold binary
  cases hscript : op.script? with
  | some symbol =>
    simpa using hbrackets _ (hl.append ((isSealed_symbol hscript).append hr))
  | none =>
    cases op with
    | xor =>
      have hnot := isSealed_inert (show ∀ c ∈ ['!'], IsInert c by decide)
      have hdiffers := hinert " !== " (by decide)
      simpa using hbrackets _ ((hl.applied hnot).append (hdiffers.append (hr.applied hnot)))
    | concat =>
      have hplus := hinert " + " (by decide)
      have hsum := (isSealed_quoted "").append (hplus.append (hl.append (hplus.append hr)))
      simpa [quoted, quotedChars] using hbrackets _ hsum
    | power => simpa using happlied "Math.pow" (by decide) _ (hl.comma hr)
    | range => simpa using happlied "range" (by decide) _ (hl.comma hr)
    | isIn => simpa using happlied "includes" (by decide) _ (hl.comma hr)
    | notIn => exact absurd rfl hop
    | matching =>
      have hparameters := (hinert "subject, re" (by decide)).inBrackets '(' rfl
      have htest := (hinert "subject" (by decide)).applied
        (hinert " => subject != null && re.test" (by decide))
      have harguments := hl.comma (isSealed_pattern literal? hr)
      simpa [closing] using hmatcher _ _ (hparameters.append htest) harguments
    | contains => simpa using hmethod "includes" (by decide)
    | startsWith => simpa using hmethod "startsWith" (by decide)
    | endsWith => simpa using hmethod "endsWith" (by decide)
    | _ => cases hscript

theorem isSealed_binary (op : BinaryOp) (literal? : Option String) (hl : IsSealed left.toList)
    (hr : IsSealed right.toList) : IsSealed (binary op left right literal?).toList := by
  by_cases hop : op = .notIn
  · have hname : IsSealed "!includes".toList := isSealed_inert (by decide)
    subst hop
    simpa [binary, BinaryOp.script?] using (hl.comma hr).applied hname
  refine binary_forms literal? hop hl hr ?_ ?_ ?_ ?_
  · exact fun inner hinner => hinner.inBrackets '(' rfl
  · have hnames : ∀ name ∈ ["Math.pow", "range", "includes"], ∀ c ∈ name.toList, IsInert c := by decide
    exact fun name hname arguments h => h.applied (isSealed_inert (hnames name hname))
  · exact fun inner arguments hinner h => h.applied (hinner.inBrackets '(' rfl)
  · have hnames : ∀ name ∈ ["includes", "startsWith", "endsWith"],
        ∀ c ∈ '.' :: name.toList, IsInert c := by decide
    exact fun name hname =>
      (isSealed_lowered hl).append ((isSealed_lowered hr).applied (isSealed_inert (hnames name hname)))

end Script

namespace Builtin

open Script (IsInert IsSealed isInert_of_isNameChar isInert_of_isDigit isSealed_inert
  isSealed_separated)

theorem isInert_of_isBinding {part : List Char} (h : isBinding part = true) :
    ∀ c ∈ part, IsInert c := by
  have hstart {c : Char} (hc : isBindingStart c = true) : IsInert c := by
    simp only [isBindingStart, Bool.or_eq_true, beq_iff_eq] at hc
    rcases hc with (hc | rfl) | rfl
    · exact isInert_of_isNameChar (by simp [isNameChar, Lexer.isNameStart, hc])
    · decide
    · decide
  cases part with
  | nil => exact fun c hc => absurd hc List.not_mem_nil
  | cons c cs =>
    rw [isBinding, Bool.and_eq_true, List.all_eq_true] at h
    rw [List.forall_mem_cons]
    refine ⟨hstart h.1, fun c hc => ?_⟩
    rcases Bool.or_eq_true_iff.mp (h.2 c hc) with hc | hc
    · exact hstart hc
    · exact isInert_of_isDigit hc

theorem isInert_of_isBindingPath {path : List Char} (h : isBindingPath path = true) :
    ∀ c ∈ path, IsInert c := by
  have hparts : ∀ part ∈ Text.segments '.' path, isBinding part = true := by
    unfold isBindingPath at h
    split at h
    · exact absurd h (by decide)
    · rename_i first rest hsegments
      simp only [Bool.and_eq_true, List.all_eq_true] at h
      rw [hsegments, List.forall_mem_cons]
      exact ⟨h.1.1, h.2⟩
  intro c hc
  have hchar : c = '.' ∨ ∃ part ∈ Text.segments '.' path, c ∈ part := Text.mem_segments hc
  rcases hchar with rfl | ⟨part, hpart, hc⟩
  · decide
  · exact isInert_of_isBinding (hparts part hpart) c hc

variable {name : String} {arguments : List String}

theorem isSealed_callScript (hname : ∀ c ∈ name.toList, IsInert c)
    (h : ∀ text ∈ arguments, IsSealed text.toList) :
    IsSealed (callScript name arguments).toList := by
  simpa [callScript] using (isSealed_separated h).applied (isSealed_inert hname)

/-- A path is written without its quotes only where none of its characters needs them. -/
theorem isSealed_pathScript (hname : ∀ c ∈ name.toList, IsInert c)
    (normalize : List Char → List Char) (h : ∀ text ∈ arguments, IsSealed text.toList) :
    IsSealed (pathScript name normalize arguments).toList := by
  unfold pathScript
  split
  · split
    · rename_i hpath
      rw [String.toList_ofList]
      exact isSealed_inert (isInert_of_isBindingPath hpath)
    · exact isSealed_callScript hname h
  · exact isSealed_callScript hname h

end Builtin

open Script (IsSealed)

/-- A script of its own is sealed where those of the arguments are. -/
def Function.IsSealing (f : Function) : Prop :=
  ∀ arguments : List String, (∀ text ∈ arguments, IsSealed text.toList) →
    IsSealed (f.script arguments).toList

namespace Registry

def IsSealing (functions : Registry) : Prop :=
  ∀ name f, functions.get? name = some f → f.IsSealing

theorem IsSealing.put {functions : Registry} (h : functions.IsSealing) {f : Function}
    (hf : f.IsSealing) : (functions.put f).IsSealing :=
  forall_get?_put h hf

theorem isSealing_withBuiltins (resolver : Option Resolver) : (withBuiltins resolver).IsSealing := by
  have hempty : Registry.IsSealing {} := nofun
  refine (((hempty.put ?_).put ?_).put ?_).put ?_
  · exact fun _ h => Builtin.isSealed_callScript (by decide) h
  · exact fun _ h => Builtin.isSealed_callScript (by decide) h
  · exact fun _ h => Builtin.isSealed_pathScript (by decide) id h
  · exact fun _ h => Builtin.isSealed_pathScript (by decide) Builtin.enumPath h

end Registry

namespace Script

section Forms

variable {functions : Registry} {chained : Bool} {c e l r y n o k : Expr} {es as : List Expr}

variable (functions) in
/-- A tree whose script is sealed, also as a chain. -/
def IsSealedExpr (e : Expr) : Prop := ∀ chained, IsSealed (ofExpr functions chained e).toList

theorem isSealed_ofExprs (h : ∀ e ∈ es, IsSealedExpr functions e) :
    IsSealed (String.intercalate ", " (ofExprs functions es)).toList := by
  apply isSealed_separated
  rw [ofExprs_eq_map, List.forall_mem_map]
  exact fun e he => h e he false

theorem isSealed_unary (op : UnaryOp) (h : IsSealedExpr functions e) :
    IsSealedExpr functions (.unary op e) := by
  intro chained
  have hop : IsSealed op.script.toList := isSealed_inert (by cases op <;> decide)
  simpa [ofExpr, closing] using (hop.append (h false)).inBrackets '(' rfl

theorem isSealed_conditional (hc : IsSealedExpr functions c) (hy : IsSealedExpr functions y)
    (hn : IsSealedExpr functions n) : IsSealedExpr functions (.conditional c y n) := by
  intro chained
  have hquestion : IsSealed " ? ".toList := isSealed_inert (by decide)
  have hcolon : IsSealed " : ".toList := isSealed_inert (by decide)
  have hbranches := ((hy false).inBrackets '(' rfl).append
    (hcolon.append ((hn false).inBrackets '(' rfl))
  have hwhole := ((hc false).inBrackets '(' rfl).append (hquestion.append hbranches)
  simpa [ofExpr, closing] using hwhole.inBrackets '(' rfl

theorem isSealed_coalesce (hl : IsSealedExpr functions l) (hr : IsSealedExpr functions r) :
    IsSealedExpr functions (.coalesce l r) := by
  intro chained
  have hsymbol : IsSealed " ?? ".toList := isSealed_inert (by decide)
  have hwhole := ((hl true).inBrackets '(' rfl).append (hsymbol.append ((hr false).inBrackets '(' rfl))
  simpa [ofExpr, closing] using hwhole.inBrackets '(' rfl

theorem isSealed_mark (p : Prop) [Decidable p] : IsSealed (if p then "?." else ".").toList := by
  split <;> exact isSealed_inert (by decide)

theorem isSealed_property (nullSafe : Bool) {member : String} (ho : IsSealedExpr functions o)
    (hmember : Parsing.isIdentifier member = true) (as : List Expr) :
    IsSealedExpr functions (.access .property nullSafe o (.identifier member) as) := by
  intro chained
  simp only [ofExpr, String.toList_append]
  exact (ho chained).append ((isSealed_mark _).append (isSealed_name hmember))

theorem isSealed_method (nullSafe : Bool) {member : String} (ho : IsSealedExpr functions o)
    (hmember : Parsing.isIdentifier member = true) (has : ∀ a ∈ as, IsSealedExpr functions a) :
    IsSealedExpr functions (.access .method nullSafe o (.identifier member) as) := by
  intro chained
  simp only [ofExpr, String.toList_append, List.append_assoc]
  exact (ho chained).append
    ((isSealed_mark _).append ((isSealed_ofExprs has).applied (isSealed_name hmember)))

theorem isSealed_index (nullSafe : Bool) (ho : IsSealedExpr functions o)
    (hk : IsSealedExpr functions k) (as : List Expr) :
    IsSealedExpr functions (.access .index nullSafe o k as) := by
  intro chained
  have hkey := (hk false).inBrackets '[' rfl
  have hmark : IsSealed ['?', '.'] := isSealed_inert (by decide)
  simp only [ofExpr, String.toList_append]
  refine (ho chained).append ?_
  split
  · exact hmark.append hkey
  · exact hkey

theorem isSealed_list (h : ∀ e ∈ es, IsSealedExpr functions e) :
    IsSealedExpr functions (.list es) := by
  intro chained
  simpa [ofExpr, closing] using (isSealed_ofExprs h).inBrackets '[' rfl

theorem isSealed_ofEntries {es : List (Expr × Expr)} (hkeys : ∀ p ∈ es, IsSealedExpr functions p.1)
    (hvalues : ∀ p ∈ es, IsSealedExpr functions p.2) :
    IsSealed (String.intercalate ", " (ofEntries functions es)).toList := by
  have hcolon : IsSealed ": ".toList := isSealed_inert (by decide)
  apply isSealed_separated
  rw [ofEntries_eq_map, List.forall_mem_map]
  intro p hp
  have hk := hkeys p hp false
  simp only [entry, String.toList_append]
  refine (IsSealed.append ?_ hcolon).append (hvalues p hp false)
  split
  · exact hk
  · simpa [closing] using hk.inBrackets '[' rfl

theorem isSealed_hash {es : List (Expr × Expr)} (hkeys : ∀ p ∈ es, IsSealedExpr functions p.1)
    (hvalues : ∀ p ∈ es, IsSealedExpr functions p.2) : IsSealedExpr functions (.hash es) := by
  intro chained
  simpa [ofExpr, closing] using (isSealed_ofEntries hkeys hvalues).inBrackets '{' rfl

theorem isSealed_call (hfunctions : functions.IsSealing) {name : String}
    (hname : Parsing.isIdentifier name = true) (has : ∀ a ∈ as, IsSealedExpr functions a) :
    IsSealedExpr functions (.call name as) := by
  intro chained
  rw [ofExpr, call]
  split
  · rename_i f hget
    refine hfunctions name f hget _ ?_
    rw [ofExprs_eq_map, List.forall_mem_map]
    exact fun a ha => has a ha false
  · simpa using (isSealed_ofExprs has).applied (isSealed_name hname)

end Forms

variable {functions : Registry} {scope : Scope} {tree : Expr}

/-- The script of a tree that is built from tokens of a text is sealed. -/
theorem isSealed_of_isBuilt (hfunctions : functions.IsSealing)
    (hkey : ∀ n, Parsing.isIdentifier n = true → Parsing.isIdentifier (scope.key n) = true)
    (h : tree.IsBuilt scope Content.IsScanned) : IsSealedExpr functions tree := by
  have hname {c : Content} (hc : c.IsScanned) (hkind : c.kind = .name) :
      Parsing.isIdentifier c.text = true := by
    obtain ⟨n, rfl, hn⟩ := exists_name_of_isScanned hc hkind
    exact hn
  induction h with
  | literal | constant =>
    intro chained
    rw [Expr.literal, ofExpr, ofConstant]
    exact isSealed_ofValue _
  | name hc hkind =>
    intro chained
    rw [ofExpr]
    exact isSealed_name (hkey _ (hname hc hkind))
  | coalescedName hc hkind =>
    intro chained
    have hfallback : IsSealed " ?? null".toList := isSealed_inert (by decide)
    rw [ofExpr, String.toList_append]
    exact (isSealed_name (hname hc hkind)).append hfallback
  | unary op _ ih => exact isSealed_unary op ih
  | binary op _ _ ihl ihr =>
    intro chained
    rw [ofExpr]
    exact isSealed_binary op _ (ihl false) (ihr false)
  | conditional _ _ _ ihc ihy ihn => exact isSealed_conditional ihc ihy ihn
  | coalesce _ _ ihl ihr => exact isSealed_coalesce ihl ihr
  | @property nullSafe o c member _ hc hmember iho =>
    exact isSealed_property nullSafe iho (isIdentifier_of_memberName? (t := c.token 0) hc hmember) []
  | @method nullSafe o c member as _ hc hmember _ iho ihas =>
    exact isSealed_method nullSafe iho (isIdentifier_of_memberName? (t := c.token 0) hc hmember) ihas
  | index nullSafe _ _ iho ihk => exact isSealed_index nullSafe iho ihk []
  | list _ ih => exact isSealed_list ih
  | hash _ _ ihkeys ihvalues => exact isSealed_hash ihkeys ihvalues
  | call hc hkind _ _ ih => exact isSealed_call hfunctions (hname hc hkind) ih

/-- Whatever text is parsed, what stands in its script outside literals is code of the language's own:
the literals and the brackets are closed, and there are no other quotes, backslashes and comments. -/
theorem isConfined_script {text : String} {declared : List Variable} {leniency : Leniency}
    {resolver : Option Resolver} (hdeclared : ∀ v ∈ declared, v.IsIdentifier)
    (h : parseText (.ofVariables (Registry.withBuiltins resolver).names (some declared) leniency) text =
      .ok tree) :
    ∃ code, code? (tree.script (Registry.withBuiltins resolver)) = some code ∧ IsConfined code := by
  have hkey : ∀ n, Parsing.isIdentifier n = true → Parsing.isIdentifier
      ((Scope.ofVariables (Registry.withBuiltins resolver).names (some declared) leniency).key n) =
        true := by
    intro n hn
    change Parsing.isIdentifier (((Scope.aliasesOf declared).get? n).getD n) = true
    cases hget : (Scope.aliasesOf declared).get? n with
    | none => exact hn
    | some key => exact (hdeclared _ (Scope.aliased_of_get?_aliasesOf hget)).1
  have hsealed := isSealed_of_isBuilt (Registry.isSealing_withBuiltins resolver) hkey
    (Parsing.isBuilt_of_parseText h)
  exact isConfined_of_isSealed (hsealed false)

/-- A quote and a comment in a literal, and a literal that becomes a binding. -/
def quotedLookup : String := "x[\"\\\"//\"] ~ enum(\"A::B\")"

theorem isConfined_quotedLookup : ∃ tree,
    parseText (.ofVariables (Registry.withBuiltins none).names (some [.aliased "row" "x"]) {})
      quotedLookup = .ok tree ∧
    ∃ code, code? (tree.script (Registry.withBuiltins none)) = some code ∧ IsConfined code := by
  have hparse : parseText
      (.ofVariables (Registry.withBuiltins none).names (some [.aliased "row" "x"]) {})
      quotedLookup = .ok (.binary .concat
        (.access .index false (.name "row") (.literal (.string "\"//")) [])
        (.call "enum" [.literal (.string "A::B")])) := by
    cbv
  refine ⟨_, hparse, isConfined_script ?_ hparse⟩
  rintro v hv
  obtain rfl := List.mem_singleton.mp hv
  exact ⟨by decide, by decide⟩

end Script
end Formula
