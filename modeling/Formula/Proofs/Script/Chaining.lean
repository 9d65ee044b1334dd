import Mathlib
import Formula.Proofs.Evaluation.Chain
import Formula.Proofs.Script.Recovery

/-! The script of an access chain to the left of `??`. -/

namespace Formula

open Script

/-- A step as it stands behind the script of its object. -/
def AccessStep.script (functions : Registry) (optional : Bool) (step : AccessStep) : String :=
  match step.kind with
  | .property => (if optional then "?." else ".") ++ step.key.script functions
  | .method =>
    (if optional then "?." else ".") ++ step.key.script functions ++
      "(" ++ String.intercalate ", " (step.arguments.map (·.script functions)) ++ ")"
  | .index => (if optional then "?.[" else "[") ++ step.key.script functions ++ "]"

/-- Steps behind the script of their object, all of them with a `?.`. -/
def optionalSteps (functions : Registry) (steps : List AccessStep) : String :=
  String.join (steps.map (AccessStep.script functions true))

namespace Script

variable {functions : Registry} {base object : Expr} {step : AccessStep} {steps : List AccessStep}

theorem ofExpr_on (chained : Bool) (step : AccessStep) (object : Expr) :
    ofExpr functions chained (step.on object) = ofExpr functions chained object ++
      step.script functions (step.nullSafe || chained && isChainObject object) := by
  obtain ⟨kind, nullSafe, key, arguments⟩ := step
  cases kind <;>
    simp only [AccessStep.on, AccessStep.script, ofExpr, Expr.script, ofExprs_eq_map]

theorem ofExpr_chain_of_isChainObject (h : isChainObject object = true) (steps : List AccessStep) :
    ofExpr functions true (object.chain steps) =
      ofExpr functions true object ++ optionalSteps functions steps := by
  induction steps generalizing object with
  | nil => simp [Expr.chain, optionalSteps]
  | cons step steps ih =>
    calc ofExpr functions true ((step.on object).chain steps)
      _ = ofExpr functions true (step.on object) ++ optionalSteps functions steps := ih rfl
      _ = ofExpr functions true object ++ optionalSteps functions (step :: steps) := by
        rw [ofExpr_on, h, Bool.and_self, Bool.or_true, String.append_assoc, optionalSteps,
          optionalSteps, List.map_cons, String.join_cons]

/-- Only the first step of a chain may stay as it is. -/
theorem ofExpr_chain (h : base.isAccess = false) (step : AccessStep) (steps : List AccessStep) :
    ofExpr functions true (base.chain (step :: steps)) =
      base.script functions ++ step.script functions (step.nullSafe || isChainObject base) ++
        optionalSteps functions steps := by
  calc ofExpr functions true ((step.on base).chain steps)
    _ = ofExpr functions true (step.on base) ++ optionalSteps functions steps :=
      ofExpr_chain_of_isChainObject rfl steps
    _ = _ := by rw [ofExpr_on, Bool.true_and, ofExpr_true functions h]; rfl

theorem coalesce_script (left fallback : Expr) : (Expr.coalesce left fallback).script functions =
    "((" ++ ofExpr functions true left ++ ") ?? (" ++ fallback.script functions ++ "))" := by
  rw [Expr.script, ofExpr, Expr.script]

theorem optionalSteps_guarded (steps : List AccessStep) :
    optionalSteps functions (steps.map .guarded) = optionalSteps functions steps := by
  rw [optionalSteps, List.map_map, optionalSteps]
  rfl

theorem optionalSteps_cons (step : AccessStep) (steps : List AccessStep) :
    optionalSteps functions (step :: steps) =
      step.script functions true ++ optionalSteps functions steps := by
  rw [optionalSteps, List.map_cons, String.join_cons, optionalSteps]

/-- A `?.` makes a step longer. -/
theorem script_true_ne (step : AccessStep) :
    step.script functions true ≠ step.script functions false := by
  intro h
  have hlength := congrArg String.length h
  obtain ⟨kind, nullSafe, key, arguments⟩ := step
  cases kind <;> simp [AccessStep.script] at hlength <;> exact absurd hlength (by decide)

theorem isChainObject_iff (h : base.isAccess = false) :
    isChainObject base = true ↔ ∃ n, base = .name n := by
  cases base with
  | access => cases h
  | _ => simp [isChainObject]

/-- Every step of a chain has a `?.` exactly if the first one has. -/
theorem ofExpr_chain_eq_iff (h : base.isAccess = false) (step : AccessStep) (steps : List AccessStep) :
    ofExpr functions true (base.chain (step :: steps)) =
        base.script functions ++ optionalSteps functions (step :: steps) ↔
      step.nullSafe = true ∨ ∃ n, base = .name n := by
  rw [ofExpr_chain h, optionalSteps_cons, ← String.append_assoc, ← isChainObject_iff h,
    ← Bool.or_eq_true]
  constructor
  · intro heq
    rw [String.append_left_inj, String.append_right_inj] at heq
    cases hoptional : step.nullSafe || isChainObject base with
    | true => rfl
    | false =>
      rw [hoptional] at heq
      exact absurd heq.symm (script_true_ne step)
  · intro hoptional
    rw [hoptional]

end Script

/-- Where one computation succeeds the other has the same result, and makes no other calls. -/
def Outcome.Thins {α : Type} (x y : Outcome α) : Prop :=
  ∀ a, x.result = .ok a → y.result = .ok a ∧ y.calls.Sublist x.calls

namespace Outcome

variable {α β : Type} {x y : Outcome α} {f g : α → Outcome β}

theorem Thins.refl (x : Outcome α) : x.Thins x := fun _ h => ⟨h, .refl _⟩

theorem Thins.bind (hxy : x.Thins y) (h : ∀ a, (f a).Thins (g a)) : (x >>= f).Thins (y >>= g) := by
  intro b hb
  obtain ⟨a, hx, hf⟩ := exists_of_bind_eq_ok hb
  obtain ⟨hy, hcalls⟩ := hxy a hx
  obtain ⟨hg, hmore⟩ := h a b hf
  rw [bind_of_ok hx, bind_of_ok hy]
  exact ⟨hg, hcalls.append hmore⟩

theorem thins_pure (x : Outcome α) (b : β) : (x >>= fun _ => pure b).Thins (pure b) := by
  intro b' hb
  obtain ⟨-, -, hpure⟩ := exists_of_bind_eq_ok hb
  exact ⟨hpure, List.nil_sublist _⟩

end Outcome

namespace Evaluation

variable {env : Env} {soft : Bool}

theorem settle_bind {α : Type} (x : Outcome α) (f : α → Outcome Access) :
    settle (x >>= f) = x >>= fun a => settle (f a) := by
  rw [settle, bind_assoc]
  rfl

theorem reach_eq_guarded (step : AccessStep) {a : Access} (h : a.toValue ≠ .null) :
    reach env soft step a = reach env soft step.guarded a := by
  obtain ⟨kind, nullSafe, key, arguments⟩ := step
  cases nullSafe with
  | true => rfl
  | false => exact (reach_guarded_of_ne_null ⟨kind, false, key, arguments⟩ h).symm

theorem settle_follow_guarded_of_null {a : Access} (h : a.toValue = .null) (steps : List AccessStep) :
    settle (follow env soft (steps.map .guarded) a) = pure .null := by
  cases steps with
  | nil => exact congrArg pure h
  | cons step steps =>
    rw [List.map_cons, follow, reach_guarded_of_null step h, pure_bind, follow_shortCircuited]
    rfl

-- By induction on the steps. From the first null on, the plain steps have nothing but null, and their
-- indices, which are evaluated all the same.
theorem thins_follow_guarded (steps : List AccessStep) (a : Access) :
    (settle (follow env true steps a)).Thins (settle (follow env true (steps.map .guarded) a)) := by
  induction steps generalizing a with
  | nil => exact .refl _
  | cons step steps ih =>
    by_cases hnull : a.toValue = .null
    · rw [settle_follow_guarded_of_null hnull, settle_follow_of_null _ hnull]
      exact Outcome.thins_pure _ _
    · rw [List.map_cons, follow, follow, settle_bind, settle_bind, reach_eq_guarded step hnull]
      exact (Outcome.Thins.refl _).bind ih

theorem chain_append (base : Expr) (before behind : List AccessStep) :
    base.chain (before ++ behind) = (base.chain before).chain behind := List.foldl_append

theorem thins_coalesce_guarded (base : Expr) (steps : List AccessStep) (fallback : Expr) :
    (evalIn env soft (.coalesce (base.chain steps) fallback)).Thins
      (evalIn env soft (.coalesce (base.chain (steps.map .guarded)) fallback)) := by
  have hleft : (evalIn env true (base.chain steps)).Thins
      (evalIn env true (base.chain (steps.map .guarded))) := by
    rw [evalIn_chain, evalIn_chain]
    exact (Outcome.Thins.refl _).bind (thins_follow_guarded steps)
  rw [evalIn_coalesce, evalIn_coalesce]
  exact hleft.bind fun _ => .refl _

/-- If an object in a chain of null-safe steps is null, nothing is evaluated up to the fallback. -/
theorem coalesce_guarded_of_null {object : Expr} (h : (evalIn env true object).result = .ok .null)
    (steps : List AccessStep) (fallback : Expr) :
    evalIn env soft (.coalesce (object.chain (steps.map .guarded)) fallback) = (do
      let _ ← evalIn env true object
      evalIn env false fallback) := by
  have hleft : evalIn env true (object.chain (steps.map .guarded)) = evalIn env true object := by
    obtain ⟨a, ha, hobject⟩ := exists_access_of_evalIn h
    rw [evalIn_chain, evalIn_eq]
    refine Outcome.bind_congr_of_ok fun b hb => ?_
    obtain rfl := Except.ok.inj (hobject.symm.trans hb)
    rw [settle_follow_guarded_of_null ha, ha]
  rw [evalIn_coalesce, hleft]
  refine Outcome.bind_congr_of_ok fun v hv => ?_
  obtain rfl := Except.ok.inj (h.symm.trans hv)
  rfl

end Evaluation

open Evaluation (evalIn)

/-- To the left of `??` every step of a chain is compiled with a `?.`, but for the first step on
anything other than a name, which needs a `?.` of its own. With it the script is that of a chain whose
steps are all null-safe. The value of such a chain is the value of the chain that was compiled, and
where an object in it is null the fallback comes next. -/
theorem script_coalesce_chain {base : Expr} (h : base.isAccess = false) (functions : Registry)
    (step : AccessStep) (steps : List AccessStep) (fallback : Expr) :
    let plain := (Expr.coalesce (base.chain (step :: steps)) fallback)
    let guarded := (Expr.coalesce (base.chain ((step :: steps).map .guarded)) fallback)
    let optional := "((" ++ (base.script functions ++ optionalSteps functions (step :: steps)) ++
      ") ?? (" ++ fallback.script functions ++ "))"
    (plain.script functions =
      "((" ++ (base.script functions ++
          step.script functions (step.nullSafe || isChainObject base) ++
          optionalSteps functions steps) ++
        ") ?? (" ++ fallback.script functions ++ "))") ∧
    (plain.script functions = optional ↔ step.nullSafe = true ∨ ∃ n, base = .name n) ∧
    guarded.script functions = optional ∧
    ∀ env soft, (∀ v, (evalIn env soft plain).result = .ok v →
        (evalIn env soft guarded).result = .ok v ∧
        (evalIn env soft guarded).calls.Sublist (evalIn env soft plain).calls) ∧
      ∀ before behind, before ++ behind = step :: steps →
        (evalIn env true (base.chain (before.map .guarded))).result = .ok .null →
        evalIn env soft guarded = (do
          let _ ← evalIn env true (base.chain (before.map .guarded))
          evalIn env false fallback) := by
  intro plain guarded optional
  have hguarded : guarded.script functions = optional := by
    rw [coalesce_script, List.map_cons, (ofExpr_chain_eq_iff h step.guarded _).mpr (.inl rfl),
      ← List.map_cons, optionalSteps_guarded]
  refine ⟨?_, ?_, hguarded, fun env soft => ⟨?_, ?_⟩⟩
  · rw [coalesce_script, ofExpr_chain h]
  · rw [← ofExpr_chain_eq_iff h, coalesce_script, String.append_left_inj, String.append_left_inj,
      String.append_left_inj, String.append_right_inj]
  · exact Evaluation.thins_coalesce_guarded base (step :: steps) fallback
  · intro before behind hsteps hnull
    rw [← Evaluation.coalesce_guarded_of_null hnull behind fallback, ← Evaluation.chain_append,
      ← List.map_append, hsteps]

/-- `x.a["b"] ?? 2` and `f(1)?.a["b"] ?? 2` -/
theorem script_coalesce_chain_nullName :
    let fallback : Expr := .literal (.int 2)
    let chain (base : Expr) (nullSafe : Bool) : Expr :=
      .coalesce (base.chain [⟨.property, nullSafe, .identifier "a", []⟩,
        ⟨.index, false, .literal (.string "b"), []⟩]) fallback
    (Expr.name "x").isAccess = false ∧ (Expr.call "f" [.literal (.int 1)]).isAccess = false ∧
    (chain (.name "x") false).script {} = "((x?.a?.[\"b\"]) ?? (2))" ∧
    (chain (.call "f" [.literal (.int 1)]) true).script {} = "((f(1)?.a?.[\"b\"]) ?? (2))" := by
  intro fallback chain
  have hname : (Expr.name "x").isAccess = false := rfl
  have hcall : (Expr.call "f" [.literal (.int 1)]).isAccess = false := rfl
  refine ⟨hname, hcall, ?_, ?_⟩
  · refine ((script_coalesce_chain hname {} _ _ _).2.1.mpr (.inr ⟨"x", rfl⟩)).trans ?_
    decide
  · refine ((script_coalesce_chain hcall {} _ _ _).2.1.mpr (.inl rfl)).trans ?_
    decide

/-- In the script of `f().a ?? "b"` the property is read of null, while its value is the fallback. -/
theorem script_coalesce_chain_nullCall :
    let functions := (Registry.withBuiltins none).put
      { name := "f", script := Builtin.callScript "f", body := .hosted "f" }
    let base : Expr := .call "f" []
    let step : AccessStep := ⟨.property, false, .identifier "a", []⟩
    let tree : Expr := .coalesce (base.chain [step]) (.literal (.string "b"))
    parseText (.ofVariables functions.names (some []) {}) "f().a ?? \"b\"" = .ok tree ∧
    tree.script functions = "((f().a) ?? (\"b\"))" ∧
    "((" ++ (base.script functions ++ optionalSteps functions [step]) ++ ") ?? (\"b\"))" =
      "((f()?.a) ?? (\"b\"))" ∧
    tree.eval (fun _ _ => .ok .null) functions [] = ⟨[⟨"f", []⟩], .ok (.string "b")⟩ := by
  intro functions base step tree
  exact ⟨by cbv, by cbv, by cbv, rfl⟩

end Formula
