import Formula.Proofs.Parsing.Simulation

/-! The order in which variables are declared does not matter to a parse. Only the proposals of an
error keep that order. -/

namespace Formula

/-- No spelling stands for two keys. -/
def Variable.Unambiguous (declared : List Variable) : Prop :=
  ∀ key key' name, .aliased key name ∈ declared → .aliased key' name ∈ declared → key = key'

theorem Variable.Unambiguous.perm {declared declared' : List Variable}
    (h : Variable.Unambiguous declared) (hperm : declared.Perm declared') :
    Variable.Unambiguous declared' :=
  fun key key' name hmem hmem' => h key key' name (hperm.mem_iff.mpr hmem) (hperm.mem_iff.mpr hmem')

namespace Scope

theorem spellingsOf_map_plain (names : List String) : spellingsOf (names.map .plain) = names := by
  induction names with
  | nil => rfl
  | cons n ns ih => rw [List.map_cons, spellingsOf, ih]

theorem aliasesOf_map_plain (names : List String) : aliasesOf (names.map .plain) = [] := by
  induction names with
  | nil => rfl
  | cons n ns ih => exact ih

theorem perm_spellingsOf {declared declared' : List Variable} (h : declared.Perm declared') :
    (spellingsOf declared).Perm (spellingsOf declared') := by
  have happend : ∀ vs : List Variable,
      spellingsOf vs = vs.flatMap fun v => spellingsOf [v] := by
    intro vs
    induction vs with
    | nil => rfl
    | cons v vs ih => cases v <;> simp [spellingsOf, ih]
  rw [happend, happend declared']
  exact h.flatMap_right _

/-- What an alias stands for was declared, or else was in the map before. -/
theorem aliased_of_get?_foldl {declared : List Variable} {name key : String} {d : Dict String}
    (h : (declared.foldl (fun d v => match v with
      | .plain _ => d
      | .aliased key name => d.put name key) d).get? name = some key) :
    .aliased key name ∈ declared ∨ d.get? name = some key := by
  induction declared generalizing d with
  | nil => exact .inr h
  | cons v vs ih =>
    rcases ih h with hmem | hget
    · exact .inl (List.mem_cons_of_mem v hmem)
    · cases v with
      | plain name' => exact .inr hget
      | aliased key' name' =>
        by_cases hname : name = name'
        · subst hname
          have hkey : key' = key := by simpa [Dict.get?_put_self] using hget
          exact .inl (hkey ▸ List.mem_cons_self)
        · exact .inr (by simpa [Dict.get?_put_of_ne d key' hname] using hget)

theorem get?_foldl_aliases {declared : List Variable} {name key : String} {d : Dict String}
    (h : ∀ key', .aliased key' name ∈ declared → key' = key)
    (hmem : .aliased key name ∈ declared ∨ d.get? name = some key) :
    (declared.foldl (fun d v => match v with
      | .plain _ => d
      | .aliased key name => d.put name key) d).get? name = some key := by
  induction declared generalizing d with
  | nil => simpa using hmem
  | cons v vs ih =>
    refine ih (fun key' hmem => h key' (List.mem_cons_of_mem v hmem)) ?_
    cases v with
    | plain name' => simpa using hmem
    | aliased key' name' =>
      by_cases hname : name = name'
      · subst hname
        have hkey : key' = key := h key' List.mem_cons_self
        simp [hkey, Dict.get?_put_self]
      · simpa [Dict.get?_put_of_ne d key' hname, hname] using hmem

theorem aliased_of_get?_aliasesOf {declared : List Variable} {name key : String}
    (h : (aliasesOf declared).get? name = some key) : .aliased key name ∈ declared :=
  (aliased_of_get?_foldl h).resolve_right (by simp [Dict.get?])

theorem get?_aliasesOf {declared : List Variable} (h : Variable.Unambiguous declared)
    {name key : String} :
    (aliasesOf declared).get? name = some key ↔ .aliased key name ∈ declared :=
  ⟨aliased_of_get?_aliasesOf, fun hmem =>
    get?_foldl_aliases (fun key' hmem' => h key' key name hmem' hmem) (.inl hmem)⟩

theorem key_eq_of_perm {declared declared' : List Variable} (hperm : declared.Perm declared')
    (h : Variable.Unambiguous declared) (functions : List String) (leniency : Leniency) :
    (ofVariables functions declared leniency).key = (ofVariables functions declared' leniency).key := by
  funext spelling
  have hget : (aliasesOf declared).get? spelling = (aliasesOf declared').get? spelling := by
    refine Option.ext fun key => ?_
    rw [get?_aliasesOf h, get?_aliasesOf (h.perm hperm), hperm.mem_iff]
  show ((aliasesOf declared).get? spelling).getD spelling = _
  rw [hget]
  rfl

end Scope

/-- Errors that agree but for the order of their proposals. -/
structure SyntaxError.Reordered (e e' : SyntaxError) : Prop where
  fault : e.fault = e'.fault
  cursor : e.cursor = e'.cursor
  expression : e.expression = e'.expression
  subject : e.subject = e'.subject
  proposals : e.proposals.Perm e'.proposals

theorem SyntaxError.Reordered.refl (e : SyntaxError) : e.Reordered e :=
  ⟨rfl, rfl, rfl, rfl, .refl _⟩

namespace Parsing

variable {declared declared' : List Variable} (hperm : declared.Perm declared')
  (h : Variable.Unambiguous declared) (functions : List String) (leniency : Leniency)
include hperm h

theorem simulatesScope_of_perm : SimulatesScope SyntaxError.Reordered (fun _ => False) Eq
    (Scope.ofVariables functions declared leniency)
    (Scope.ofVariables functions declared' leniency) where
  variableNamed name cursor := by
    have hspellings := Scope.perm_spellingsOf hperm
    have hcontains : (Scope.spellingsOf declared).contains name =
        (Scope.spellingsOf declared').contains name := by
      rw [Bool.eq_iff_iff, List.contains_iff_mem, List.contains_iff_mem, hspellings.mem_iff]
    have hkey := Scope.key_eq_of_perm hperm h functions leniency
    unfold variableNamed
    rw [hkey]
    change Simulates _ _ _ (if leniency.unknownVariables || (Scope.spellingsOf declared).contains name
      then _ else _) (if leniency.unknownVariables || (Scope.spellingsOf declared').contains name
      then _ else _)
    rw [hcontains]
    refine .ite (simulates_pure rfl) (.bind_same .refl _ fun _ => .ite (simulates_pure rfl) ?_)
    exact .bind_same .refl _ fun _ _ => .error ⟨rfl, rfl, rfl, rfl, hspellings⟩
  callOf name cursor hsub := by
    refine .ite ?_ (.bind_same .refl _ fun _ _ => .error ⟨rfl, rfl, rfl, rfl, .refl _⟩)
    refine (simulates_arguments .refl hsub).bind fun as as' has => simulates_pure ?_
    exact Expr.isCongruence_eq.call name has

theorem parseTokens_perm (stream : TokenStream) :
    (∃ tree, parseTokens (Scope.ofVariables functions declared leniency) stream = .ok tree ∧
      parseTokens (Scope.ofVariables functions declared' leniency) stream = .ok tree) ∨
    ∃ e e', parseTokens (Scope.ofVariables functions declared leniency) stream = .error e ∧
      parseTokens (Scope.ofVariables functions declared' leniency) stream = .error e' ∧
      e.Reordered e' := by
  have hmatches := simulates_whole .refl Expr.isCongruence_eq
    (simulatesScope_of_perm hperm h functions leniency) { stream }
  rw [parseTokens_run, parseTokens_run]
  generalize whole (Scope.ofVariables functions declared leniency) { stream } = r at hmatches ⊢
  generalize whole (Scope.ofVariables functions declared' leniency) { stream } = r' at hmatches ⊢
  cases hmatches with
  | ok htree => exact .inl ⟨_, rfl, by rw [htree]⟩
  | error he => exact .inr ⟨_, _, rfl, rfl, he⟩
  | silent hfalse => exact hfalse.elim

/-- A text has the same tree whatever the order in which its variables are declared. -/
theorem parseText_perm {text : String} {tree : Expr}
    (hparse : parseText (Scope.ofVariables functions declared leniency) text = .ok tree) :
    parseText (Scope.ofVariables functions declared' leniency) text = .ok tree := by
  obtain ⟨stream, htokens, hparse⟩ := parseText_eq_ok_iff.mp hparse
  refine parseText_eq_ok_iff.mpr ⟨stream, htokens, ?_⟩
  obtain ⟨tree', hleft, hright⟩ | ⟨e, e', hleft, -⟩ :=
    parseTokens_perm hperm h functions leniency stream
  · rw [hright, ← hleft, hparse]
  · exact absurd (hleft.symm.trans hparse) nofun

end Parsing
end Formula
