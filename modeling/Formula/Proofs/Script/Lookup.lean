import Mathlib
import Formula.Evaluation
import Formula.Proofs.Script.Confinement

/-! Paths of bindings. What is compiled to a binding is read back from the literal, and evaluation
asks the host for the string itself; for every path the two are the same. -/

namespace Formula

namespace Builtin

variable {part cs : List Char} {c : Char}

/-- Identifiers with dots between them, the first of them no reserved word. -/
def IsPath (path : String) : Prop :=
  ∃ first rest, path = String.intercalate "." (first :: rest) ∧
    (∀ part ∈ first :: rest, isBinding part.toList = true) ∧ first ∉ reservedWords

theorem isBindingStart_or_isDigit_of_isBinding (h : isBinding part = true) :
    ∀ c ∈ part, isBindingStart c = true ∨ c.isDigit = true := by
  cases part with
  | nil => simp
  | cons c cs =>
    rw [isBinding, Bool.and_eq_true, List.all_eq_true] at h
    rw [List.forall_mem_cons]
    exact ⟨.inl h.1, fun c hc => Bool.or_eq_true_iff.mp (h.2 c hc)⟩

theorem dot_notMem_of_isBinding (h : isBinding part = true) : '.' ∉ part := fun hdot =>
  absurd (isBindingStart_or_isDigit_of_isBinding h '.' hdot) (by decide)

theorem segments_of_isBinding {parts : List String} (hne : parts ≠ [])
    (h : ∀ part ∈ parts, isBinding part.toList = true) :
    Text.segments '.' (String.intercalate "." parts).toList = parts.map String.toList := by
  have hdots : ∀ part ∈ parts.map String.toList, '.' ∉ part := by
    rw [List.forall_mem_map]
    exact fun part hpart => dot_notMem_of_isBinding (h part hpart)
  rw [String.toList_intercalate]
  exact Text.segments_intercalate (by simpa using hne) hdots

theorem isBindingPath_iff {path : String} : isBindingPath path.toList = true ↔ IsPath path := by
  constructor
  · intro h
    have hjoined := Text.intercalate_segments '.' path.toList
    unfold isBindingPath at h
    split at h
    · cases h
    · rename_i first rest hsegments
      simp only [Bool.and_eq_true, Bool.not_eq_true', List.contains_eq_mem, decide_eq_false_iff_not,
        List.all_eq_true] at h
      obtain ⟨⟨hfirst, hreserved⟩, hrest⟩ := h
      refine ⟨.ofList first, rest.map .ofList, ?_, ?_, hreserved⟩
      · apply String.toList_inj.mp
        rw [String.toList_intercalate, ← hjoined, hsegments]
        simp [Function.comp_def]
      · rw [List.forall_mem_cons, List.forall_mem_map]
        simpa using ⟨hfirst, hrest⟩
  · rintro ⟨first, rest, rfl, hparts, hreserved⟩
    rw [isBindingPath, segments_of_isBinding (by simp) hparts, List.map_cons]
    rw [List.forall_mem_cons] at hparts
    have hrest : (rest.map String.toList).all isBinding = true := by
      rw [List.all_map, List.all_eq_true]
      exact hparts.2
    simp [hparts.1, hreserved, hrest]

theorem isBindingStart_or_of_isPath {path : String} (h : IsPath path) :
    ∀ c ∈ path.toList, c = '.' ∨ isBindingStart c = true ∨ c.isDigit = true := by
  obtain ⟨first, rest, rfl, hparts, -⟩ := h
  intro c hc
  have hsplit : c = '.' ∨ ∃ part ∈ Text.segments '.' _, c ∈ part := Text.mem_segments hc
  refine hsplit.imp_right ?_
  rw [segments_of_isBinding (by simp) hparts]
  rintro ⟨part, hpart, hc⟩
  obtain ⟨binding, hbinding, rfl⟩ := List.mem_map.mp hpart
  exact isBindingStart_or_isDigit_of_isBinding (hparts binding hbinding) c hc

/-- What an escape in a literal is without its backslash. -/
def unescaped : Char → Char
  | '\x00' => '0'
  | '\t' => 't'
  | '\n' => 'n'
  | '\r' => 'r'
  | c => c

theorem unescaped_of_notMem (h : c ∉ ['\x00', '\t', '\n', '\r']) : unescaped c = c := by
  simp only [List.mem_cons, List.not_mem_nil, or_false, not_or] at h
  unfold unescaped
  split <;> simp_all

theorem map_unescaped (h : ∀ c ∈ cs, c ∉ ['\x00', '\t', '\n', '\r']) : cs.map unescaped = cs := by
  calc cs.map unescaped
    _ = cs.map id := List.map_congr_left fun c hc => unescaped_of_notMem (h c hc)
    _ = cs := List.map_id cs

theorem unquotedChars?_escaped (c : Char) (cs : List Char) :
    unquotedChars? ('\\' :: c :: cs) = (unquotedChars? cs).map (c :: ·) := by
  rw [unquotedChars?]

theorem unquotedChars?_plain (hquote : c ≠ '"') (hbackslash : c ≠ '\\') (cs : List Char) :
    unquotedChars? (c :: cs) = (unquotedChars? cs).map (c :: ·) := by
  rw [unquotedChars?] <;> simp_all

theorem unquotedChars?_quotedChars (cs : List Char) :
    unquotedChars? (Script.quotedChars cs) = some (cs.map unescaped) := by
  fun_induction Script.quotedChars cs with
  | case1 => rfl
  | case8 c cs hquote hbackslash hnul htab hline hreturn ih =>
    have hplain : unescaped c = c := unescaped_of_notMem (by simp_all)
    rw [unquotedChars?_plain hquote hbackslash, ih, List.map_cons, hplain]
    rfl
  | _ cs ih =>
    rw [unquotedChars?_escaped, ih]
    rfl

theorem unquoted?_quoted (s : String) :
    unquoted? (Script.quoted s) = some (s.toList.map unescaped) := by
  rw [unquoted?, Script.quoted, String.toList_ofList]
  exact unquotedChars?_quotedChars s.toList

theorem mem_dotted (hc : c ∉ [':', '\\']) (h : c ∈ cs) : c ∈ dotted cs := by
  fun_induction dotted cs with
  | case1 => exact h
  | case2 cs ih | case3 cs ih => simp_all
  | case4 c' cs _ _ ih =>
    rcases List.mem_cons.mp h with rfl | h
    · exact List.mem_cons_self
    · exact List.mem_cons_of_mem c' (ih h)

theorem mem_enumPath (hc : c ∉ [':', '\\', '.']) (h : c ∈ cs) : c ∈ enumPath cs := by
  simp only [List.mem_cons, List.not_mem_nil, or_false, not_or] at hc
  have hdotted : c ∈ dotted cs := mem_dotted (by simp [hc]) h
  have hsplit : (dotted cs).takeWhile (· == '.') ++ (dotted cs).dropWhile (· == '.') = dotted cs :=
    List.takeWhile_append_dropWhile
  rw [← hsplit, List.mem_append] at hdotted
  refine hdotted.resolve_left fun hleading => ?_
  exact hc.2.2 (by simpa using List.mem_takeWhile_imp hleading)

/-- The functions that look a path up. -/
inductive Lookup
  | constant
  | enum
deriving DecidableEq, Repr

namespace Lookup

variable {l : Lookup} {s : String}

def name : Lookup → String
  | constant => "constant"
  | enum => "enum"

def normalize : Lookup → List Char → List Char
  | constant => id
  | enum => enumPath

/-- The path that a string means. -/
def path (l : Lookup) (s : String) : String := .ofList (l.normalize s.toList)

/-- A function that looks a path up, on a literal. -/
def literal (l : Lookup) (s : String) : Expr := .call l.name [.literal (.string s)]

/-- The string that the literal of `s` is read as when its script is taken apart again. -/
def reread (s : String) : String := .ofList (s.toList.map unescaped)

theorem reread_of_notMem (h : ∀ c ∈ s.toList, c ∉ ['\x00', '\t', '\n', '\r']) : reread s = s := by
  rw [reread, map_unescaped h, String.ofList_toList]

theorem mem_path (hc : c ∉ [':', '\\', '.']) (h : c ∈ s.toList) : c ∈ (l.path s).toList := by
  rw [path, String.toList_ofList]
  cases l with
  | constant => exact h
  | enum => exact mem_enumPath hc h

/-- None of the characters with a letter in their escape stands in a path. -/
theorem notMem_of_isPath (h : IsPath (l.path s)) :
    ∀ c ∈ s.toList, c ∉ ['\x00', '\t', '\n', '\r'] := by
  intro c hc hescaped
  simp only [List.mem_cons, List.not_mem_nil, or_false] at hescaped
  have hplain : c ∉ [':', '\\', '.'] := by
    rcases hescaped with rfl | rfl | rfl | rfl <;> decide
  have hbinding := isBindingStart_or_of_isPath h c (mem_path hplain hc)
  rcases hescaped with rfl | rfl | rfl | rfl <;> exact absurd hbinding (by decide)

theorem script_eq (l : Lookup) (resolver : Option Resolver) (s : String) :
    (l.literal s).script (Registry.withBuiltins resolver) =
      pathScript l.name l.normalize [Script.quoted s] := by
  cases l <;>
    simp only [literal, Expr.script, Script.ofExpr, Script.ofExprs, Script.call] <;> rfl

theorem script_eq_ite (l : Lookup) (resolver : Option Resolver) (s : String) :
    (l.literal s).script (Registry.withBuiltins resolver) =
      if isBindingPath (l.path (reread s)).toList = true then l.path (reread s)
      else l.name ++ "(" ++ Script.quoted s ++ ")" := by
  have hpath : l.path (reread s) = .ofList (l.normalize (s.toList.map unescaped)) := by
    rw [path, reread, String.toList_ofList]
  rw [script_eq, pathScript, List.head?_cons, Option.bind_some, unquoted?_quoted, Option.map_some,
    hpath, String.toList_ofList]
  rfl

/-- The value is that of the path, whatever the host's functions do. -/
theorem eval_literal (l : Lookup) (resolver : Option Resolver) (s : String) (host : Host)
    (context : Context) :
    (l.literal s).eval host (Registry.withBuiltins resolver) context =
      ⟨[], .ok (((resolver.bind (· (l.path s))) <|> context.get? s).getD .null)⟩ := by
  cases l <;> rfl

/-- A literal that means a path is compiled to it, and the resolver is asked for the same path. Any
other literal is left to the helper, unless a path is left of it without the backslashes of its
escapes. -/
theorem script_literal (l : Lookup) (resolver : Option Resolver) (s : String) :
    (IsPath (l.path s) → (l.literal s).script (Registry.withBuiltins resolver) = l.path s) ∧
    (IsPath (l.path (reread s)) →
      (l.literal s).script (Registry.withBuiltins resolver) = l.path (reread s)) ∧
    (¬IsPath (l.path (reread s)) → (l.literal s).script (Registry.withBuiltins resolver) =
      l.name ++ "(" ++ Script.quoted s ++ ")") ∧
    ((∀ c ∈ s.toList, c ∉ ['\x00', '\t', '\n', '\r']) → reread s = s) ∧
    ∀ host context, (l.literal s).eval host (Registry.withBuiltins resolver) context =
      ⟨[], .ok (((resolver.bind (· (l.path s))) <|> context.get? s).getD .null)⟩ := by
  have hbare (h : IsPath (l.path (reread s))) :
      (l.literal s).script (Registry.withBuiltins resolver) = l.path (reread s) := by
    rw [script_eq_ite, if_pos (isBindingPath_iff.mpr h)]
  refine ⟨fun h => ?_, hbare, fun h => ?_, reread_of_notMem, eval_literal l resolver s⟩
  · rw [reread_of_notMem (notMem_of_isPath h)] at hbare
    exact hbare h
  · rw [script_eq_ite, if_neg (mt isBindingPath_iff.mp h)]

instance (path : String) : Decidable (IsPath path) := decidable_of_iff _ isBindingPath_iff

/-- `enum("App\\Status::ACTIVE")` is compiled to `App.Status.ACTIVE`, and `enum("1::A")` to itself. -/
theorem script_literal_status :
    let resolver : Resolver := fun path => some (.string path)
    IsPath (enum.path "App\\Status::ACTIVE") ∧
    (enum.literal "App\\Status::ACTIVE").script (Registry.withBuiltins resolver) =
      "App.Status.ACTIVE" ∧
    ¬IsPath (enum.path (reread "1::A")) ∧
    (enum.literal "1::A").script (Registry.withBuiltins resolver) = "enum(\"1::A\")" ∧
    (enum.literal "App\\Status::ACTIVE").eval (fun _ _ => .ok .null)
      (Registry.withBuiltins resolver) [] = ⟨[], .ok (.string "App.Status.ACTIVE")⟩ := by
  intro resolver
  have hpath : IsPath (enum.path "App\\Status::ACTIVE") := by decide
  have hnot : ¬IsPath (enum.path (reread "1::A")) := by decide
  refine ⟨hpath, ((script_literal enum resolver _).1 hpath).trans (by decide), hnot,
    ((script_literal enum resolver _).2.2.1 hnot).trans (by decide), ?_⟩
  rw [(script_literal enum resolver _).2.2.2.2]
  rfl

/-- A null character in a string is escaped as `\\0`, and without its backslash that is the digit. The
binding `a0b` is none that is asked for. -/
theorem script_literal_nullCharacter :
    let resolver : Resolver := fun path => some (.string path)
    let functions := Registry.withBuiltins resolver
    parseText (.ofVariables functions.names (some []) {}) "constant(\"a\x00b\")" =
      .ok (constant.literal "a\x00b") ∧
    ¬IsPath (constant.path "a\x00b") ∧
    (constant.literal "a\x00b").script functions = "a0b" ∧
    (constant.literal "a\x00b").eval (fun _ _ => .ok .null) functions [] =
      ⟨[], .ok (.string "a\x00b")⟩ := by
  intro resolver functions
  exact ⟨by cbv, by decide, by cbv, rfl⟩

end Lookup
end Builtin
end Formula
