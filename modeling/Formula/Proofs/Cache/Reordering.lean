import Mathlib
import Formula.Proofs.Language.Transparency
import Formula.Proofs.Parsing.Renaming

/-! Variables in another order. The key of a parse is the same, and so is the parse, but for variables
under a spelling that stands for two keys. -/

namespace Formula

open Formula.Language

theorem Variable.le_eq (v w : Variable) :
    v.le w = decide (toLex (v.spelling, v.display) ≤ toLex (w.spelling, w.display)) := by
  rw [Variable.le, Bool.eq_iff_iff]
  simp [Prod.Lex.toLex_le_toLex]

variable {declared declared' : List Variable}

/-- Variables may be equal in this order, but then they are displayed alike. -/
theorem map_display_mergeSort_of_perm (h : declared.Perm declared') :
    (declared.mergeSort Variable.le).map Variable.display =
      (declared'.mergeSort Variable.le).map Variable.display := by
  let label (v : Variable) : String ×ₗ String := toLex (v.spelling, v.display)
  have hlabels (vs : List Variable) : (vs.mergeSort Variable.le).map label =
      (vs.map label).mergeSort fun x y => decide (x ≤ y) :=
    List.map_mergeSort fun v _ w _ => Variable.le_eq v w
  have hsame : (declared.mergeSort Variable.le).map label =
      (declared'.mergeSort Variable.le).map label := by
    rw [hlabels, hlabels]
    refine List.Perm.eq_of_sortedLE List.sortedLE_mergeSort List.sortedLE_mergeSort ?_
    exact (List.mergeSort_perm _ _).trans ((h.map label).trans (List.mergeSort_perm _ _).symm)
  have hdisplay (vs : List Variable) : vs.map Variable.display =
      (vs.map label).map fun x => (ofLex x).2 := by
    rw [List.map_map]
    rfl
  rw [hdisplay, hdisplay, hsame]

theorem cacheKey_eq_of_perm (h : declared.Perm declared') (source : String) (leniency : Leniency) :
    cacheKey source declared leniency = cacheKey source declared' leniency := by
  rw [cacheKey, rawCacheKey, map_display_mergeSort_of_perm h, cacheKey, rawCacheKey]

/-- In another order variables have the same key, and an expression has the same tree, or the same
fault at the same place. Only where a variable of the expression is written under a spelling that
stands for two keys, and another of them comes last, the trees differ in its name. -/
theorem cacheKey_and_parseText_of_perm (hperm : declared.Perm declared') (source : String)
    (functions : List String) (leniency : Leniency) :
    let scope := Scope.ofVariables functions declared leniency
    let scope' := Scope.ofVariables functions declared' leniency
    cacheKey source declared leniency = cacheKey source declared' leniency ∧
    ((∃ tree, parseText scope.unaliased source = .ok tree ∧
        parseText scope source = .ok (tree.renamed scope.key) ∧
        parseText scope' source = .ok (tree.renamed scope'.key) ∧
        (tree.renamed scope.key = tree.renamed scope'.key ↔
          ∀ name, .name name ∈ tree.nodes → scope.key name = scope'.key name)) ∨
      ∃ e e', parseText scope source = .error e ∧ parseText scope' source = .error e' ∧
        e.Reordered e') ∧
    (Variable.Unambiguous declared → scope.key = scope'.key) := by
  intro scope scope'
  refine ⟨cacheKey_eq_of_perm hperm source leniency, ?_,
    fun h => Scope.key_eq_of_perm hperm h functions leniency⟩
  rw [Parsing.parseText_eq_map_renamed scope, Parsing.parseText_eq_map_renamed scope']
  obtain ⟨tree, htree, htree'⟩ | ⟨e, e', he, he', hreordered⟩ :=
    Parsing.parseText_unaliased_perm hperm functions leniency source
  · rw [htree, htree']
    exact .inl ⟨tree, rfl, rfl, rfl, Expr.renamed_eq_iff scope.key scope'.key tree⟩
  · rw [he, he']
    exact .inr ⟨e, e', rfl, rfl, hreordered⟩

/-- `x` stands for `b` in both orders, and `z` is unknown in both. -/
theorem cacheKey_and_parseText_of_perm_sample :
    let declared : List Variable := [.aliased "a" "x", .plain "y", .aliased "b" "x"]
    let declared' : List Variable := [.plain "y", .aliased "a" "x", .aliased "b" "x"]
    let scope := Scope.ofVariables [] declared {}
    let scope' := Scope.ofVariables [] declared' {}
    declared.Perm declared' ∧ cacheKey "x + y" declared {} = cacheKey "x + y" declared' {} ∧
    parseText scope "x + y" = .ok (.binary .add (.name "b") (.name "y")) ∧
    parseText scope' "x + y" = .ok (.binary .add (.name "b") (.name "y")) ∧
    ∃ e e', parseText scope "z" = .error e ∧ parseText scope' "z" = .error e' ∧ e.Reordered e' := by
  intro declared declared' scope scope'
  have hperm : declared.Perm declared' := .swap _ _ _
  obtain ⟨hkey, hsum, -⟩ := cacheKey_and_parseText_of_perm hperm "x + y" [] {}
  obtain ⟨-, hunknown, -⟩ := cacheKey_and_parseText_of_perm hperm "z" [] {}
  have hplain : parseText scope.unaliased "x + y" = .ok (.binary .add (.name "x") (.name "y")) := by
    cbv
  have herror : parseText scope "z" =
      .error ⟨.unknownVariable "z", 1, "z", "z", ["a", "x", "y", "b", "x"]⟩ := by cbv
  obtain ⟨tree, htree, hleft, hright, -⟩ | ⟨e, e', he, -⟩ := hsum
  · obtain rfl := Except.ok.inj (hplain.symm.trans htree)
    refine ⟨hperm, hkey, hleft.trans (by cbv), hright.trans (by cbv), ?_⟩
    obtain ⟨tree, -, htree, -⟩ | hreordered := hunknown
    · cases herror.symm.trans htree
    · exact hreordered
  · rw [Parsing.parseText_eq_map_renamed, hplain] at he
    cases he

/-- The alias that comes last counts, but the key does not tell which one that is: behind the parse
of another order the second order gets the tree of the first. -/
theorem parseText_ne_of_ambiguous :
    let declared : List Variable := [.aliased "a" "x", .aliased "b" "x"]
    let declared' : List Variable := [.aliased "b" "x", .aliased "a" "x"]
    declared.Perm declared' ∧ cacheKey "x" declared {} = cacheKey "x" declared' {} ∧
    parseText (.ofVariables [] declared {}) "x" = .ok (.name "b") ∧
    parseText (.ofVariables [] declared' {}) "x" = .ok (.name "a") ∧
    answers [.parse (.text "x") declared' {}] (withCache (BoundedCache.ofCapacity 1)) =
      [.ok (.parsed "x" (.name "a"))] ∧
    answers [.parse (.text "x") declared {}, .parse (.text "x") declared' {}]
        (withCache (BoundedCache.ofCapacity 1)) =
      [.ok (.parsed "x" (.name "b")), .ok (.parsed "x" (.name "b"))] :=
  ⟨.swap _ _ _, by cbv, by cbv, by cbv, by cbv, by cbv⟩

end Formula
