import Mathlib
import Formula.Proofs.Evaluation.Chain
import Formula.Proofs.Script.Recovery

/-! The left side of `??` beside the same tree on its own. A soft chain does all that a strict one does
until that fails at a value without members. -/

namespace Formula

/-- Errors of a step on a value that has no members. -/
def EvalError.isMemberless : EvalError → Bool
  | propertyOnNonObject _ _ | methodOnNonObject _ _ | itemOnNonArray _ => true
  | _ => false

namespace Outcome

variable {α β : Type} {x : Outcome α} {a : α}

theorem map_of_ok (h : x.result = .ok a) (f : α → β) :
    (do return f (← x) : Outcome β) = ⟨x.calls, .ok (f a)⟩ := by
  rw [bind_of_ok h]
  exact congrArg (Outcome.mk · _) (List.append_nil x.calls)

end Outcome

/-- Where `x` does not fail at a value without members, `y` is `x`. -/
def Outcome.Softens {α : Type} (x y : Outcome α) : Prop :=
  (∀ error, x.result = .error error → error.isMemberless = false) → y = x

namespace Outcome.Softens

variable {α β : Type} {x y : Outcome α} {f g : α → Outcome β}

theorem refl (x : Outcome α) : x.Softens x := fun _ => rfl

theorem bind (hx : x.Softens y) (hf : ∀ a, (f a).Softens (g a)) : (x >>= f).Softens (y >>= g) := by
  intro hfails
  cases hresult : x.result with
  | error error =>
    have hy : y = x := hx fun other hother => by
      obtain rfl : error = other := Except.error.inj (hresult.symm.trans hother)
      exact hfails error (by rw [bind_of_error hresult])
    rw [hy, bind_of_error hresult, bind_of_error hresult]
  | ok a =>
    have hy : y = x := hx fun error herror => by cases hresult.symm.trans herror
    have hg : g a = f a := hf a fun error herror => hfails error (by rw [bind_of_ok hresult, herror])
    rw [hy, bind_of_ok hresult, bind_of_ok hresult, hg]

end Outcome.Softens

namespace Evaluation

open Outcome (ofExcept)

variable {env : Env}

theorem softens_property (object : Value) (name : String) :
    (ofExcept (property false object name)).Softens (ofExcept (property true object name)) := by
  cases object with
  | array | object => exact .refl _
  | _ => exact fun hfails => Bool.noConfusion (hfails _ rfl)

theorem softens_item (object key : Value) :
    (ofExcept (item false object key)).Softens (ofExcept (item true object key)) := by
  cases object with
  | array | object => exact .refl _
  | _ => exact fun hfails => Bool.noConfusion (hfails _ rfl)

theorem softens_methodOf (object : Value) (name : String) :
    (ofExcept (methodOf false object name)).Softens (ofExcept (methodOf true object name)) := by
  cases object with
  | object => exact .refl _
  | _ => exact fun hfails => Bool.noConfusion (hfails _ rfl)

theorem softens_reach (step : AccessStep) (a : Access) :
    (reach env false step a).Softens (reach env true step a) := by
  obtain ⟨kind, nullSafe, key, arguments⟩ := step
  cases a with
  | shortCircuited => exact .refl _
  | value o =>
    unfold reach
    dsimp only
    split
    · exact .refl _
    · cases kind with
      | property => exact (softens_property o _).bind fun _ => .refl _
      | method => exact (softens_methodOf o _).bind fun _ => .refl _
      | index => exact Outcome.Softens.bind (.refl _) fun k => (softens_item o k).bind fun _ => .refl _

/-- Only a step of a chain tells a soft evaluation from a strict one. -/
theorem walk_eq_of_isAccess {e : Expr} (h : e.isAccess = false) (soft soft' : Bool) :
    walk env soft e = walk env soft' e := by
  cases e with
  | access => exact absurd h (by simp [Expr.isAccess])
  | _ => rw [walk, walk]

theorem evalIn_eq_of_isAccess {e : Expr} (h : e.isAccess = false) (soft soft' : Bool) :
    evalIn env soft e = evalIn env soft' e :=
  congrArg settle (walk_eq_of_isAccess h soft soft')

-- By induction on the objects. Keys and arguments are evaluated strictly in both.
theorem softens_walk : ∀ e : Expr, (walk env false e).Softens (walk env true e)
  | .access kind nullSafe object key arguments => by
    let step : AccessStep := ⟨kind, nullSafe, key, arguments⟩
    show (walk env false (step.on object)).Softens (walk env true (step.on object))
    rw [walk_on, walk_on]
    exact (softens_walk object).bind fun a => softens_reach step a
  | .const _ _ | .name _ | .coalescedName _ | .unary _ _ | .binary _ _ _ | .conditional _ _ _
  | .coalesce _ _ | .list _ | .hash _ | .call _ _ => fun _ => walk_eq_of_isAccess rfl true false

theorem softens_evalIn (e : Expr) : (evalIn env false e).Softens (evalIn env true e) := by
  rw [evalIn_eq, evalIn_eq]
  exact (softens_walk e).bind fun a => .refl (pure a.toValue)

/-- A soft step to a property never fails, whatever its object is. -/
theorem exists_reach_of_property {step : AccessStep} (h : step.kind = .property) (a : Access) :
    ∃ b, reach env true step a = pure b := by
  obtain ⟨kind, nullSafe, key, arguments⟩ := step
  obtain rfl : kind = .property := h
  cases a with
  | shortCircuited => exact ⟨_, rfl⟩
  | value o =>
    unfold reach
    dsimp only
    split
    · exact ⟨_, rfl⟩
    · cases o <;> exact ⟨_, rfl⟩

theorem exists_follow_of_property {steps : List AccessStep}
    (h : ∀ step ∈ steps, step.kind = .property) (a : Access) :
    ∃ b, follow env true steps a = pure b := by
  induction steps generalizing a with
  | nil => exact ⟨a, rfl⟩
  | cons step steps ih =>
    rw [List.forall_mem_cons] at h
    have hreach : ∃ b, reach env true step a = pure b := exists_reach_of_property h.1 a
    obtain ⟨b, hb⟩ := hreach
    obtain ⟨c, hc⟩ := ih h.2 b
    exact ⟨c, by rw [follow, hb, pure_bind, hc]⟩

theorem exists_evalIn_chain_of_property {base : Expr} {calls : List Call} {v : Value}
    (hbase : evalIn env true base = ⟨calls, .ok v⟩) {steps : List AccessStep}
    (h : ∀ step ∈ steps, step.kind = .property) :
    ∃ w, evalIn env true (base.chain steps) = ⟨calls, .ok w⟩ := by
  obtain ⟨a, -, hwalk⟩ := exists_access_of_evalIn (congrArg Outcome.result hbase)
  have hfollow : ∃ b, follow env true steps a = pure b := exists_follow_of_property h a
  obtain ⟨b, hb⟩ := hfollow
  have hcalls : (walk env true base).calls = calls := by
    rw [evalIn_eq, Outcome.map_of_ok hwalk] at hbase
    exact congrArg Outcome.calls hbase
  refine ⟨b.toValue, ?_⟩
  calc evalIn env true (base.chain steps)
    _ = walk env true base >>= fun a => settle (follow env true steps a) := evalIn_chain base steps
    _ = walk env true base >>= fun _ => pure b.toValue := by
      refine Outcome.bind_congr_of_ok fun a' ha' => ?_
      obtain rfl := Except.ok.inj (hwalk.symm.trans ha')
      rw [hb]
      rfl
    _ = ⟨calls, .ok b.toValue⟩ := by rw [Outcome.map_of_ok hwalk, hcalls]

theorem evalIn_coalesce_of_ok {left : Expr} {calls : List Call} {v : Value}
    (hleft : evalIn env true left = ⟨calls, .ok v⟩) (soft : Bool) (fallback : Expr) :
    evalIn env soft (.coalesce left fallback) =
      if v.isNull then
        ⟨calls ++ (evalIn env false fallback).calls, (evalIn env false fallback).result⟩
      else ⟨calls, .ok v⟩ := by
  rw [evalIn_coalesce, hleft, Outcome.bind_of_ok rfl]
  split
  · rfl
  · exact congrArg (Outcome.mk · _) (List.append_nil calls)

theorem evalIn_coalesce_of_error {left : Expr} {calls : List Call} {error : EvalError}
    (hleft : evalIn env true left = ⟨calls, .error error⟩) (soft : Bool) (fallback : Expr) :
    evalIn env soft (.coalesce left fallback) = ⟨calls, .error error⟩ := by
  rw [evalIn_coalesce, hleft, Outcome.bind_of_error rfl]

/-- To the left of `??` a tree does what it does on its own: if that has a value, the fallback only
follows where it is null, and if it fails, so does the whole, unless a step of its chain met a value
without members. Steps to properties do not fail there at all. -/
theorem evalIn_coalesce_of_evalIn (env : Env) (soft : Bool) (e fallback : Expr) :
    (∀ calls v, evalIn env false e = ⟨calls, .ok v⟩ →
      evalIn env soft (.coalesce e fallback) =
        if v.isNull then
          ⟨calls ++ (evalIn env false fallback).calls, (evalIn env false fallback).result⟩
        else ⟨calls, .ok v⟩) ∧
    (∀ calls error, evalIn env false e = ⟨calls, .error error⟩ →
      error.isMemberless = false ∨ e.isAccess = false →
      evalIn env soft (.coalesce e fallback) = ⟨calls, .error error⟩) ∧
    (∀ base steps calls v, e = Expr.chain base steps → base.isAccess = false →
      (∀ step ∈ steps, step.kind = .property) → evalIn env false base = ⟨calls, .ok v⟩ →
      ∃ w, evalIn env true e = ⟨calls, .ok w⟩) := by
  refine ⟨fun calls v h => ?_, fun calls error h hkept => ?_, ?_⟩
  · have hsoft : evalIn env true e = evalIn env false e :=
      softens_evalIn e fun error herror => by
        rw [h] at herror
        cases herror
    exact evalIn_coalesce_of_ok (hsoft.trans h) soft fallback
  · have hsoft : evalIn env true e = evalIn env false e := by
      rcases hkept with hmembers | haccess
      · refine softens_evalIn e fun other herror => ?_
        rw [h] at herror
        exact Except.error.inj herror ▸ hmembers
      · exact evalIn_eq_of_isAccess haccess true false
    exact evalIn_coalesce_of_error (hsoft.trans h) soft fallback
  · rintro base steps calls v rfl hbase hsteps h
    exact exists_evalIn_chain_of_property ((evalIn_eq_of_isAccess hbase true false).trans h) hsteps

/-- In `f(1)[5] ?? f(2)` both calls are made and in `f(1)[0] ?? f(2)` one. The negation of `f(1)[0].a`
fails to the left of `??` as well, and so does `g()`, but not `f(1)[0].a.b`. -/
theorem evalIn_coalesce_of_evalIn_sample :
    let env := echoing []
    let fallback : Expr := .call "f" [.literal (.int 2)]
    let property (name : String) : AccessStep := ⟨.property, false, .identifier name, []⟩
    let negation : Expr := .unary .bang ((itemOfCall 0).chain [property "a"])
    let chain := Expr.chain (.call "f" [.literal (.int 1)]) [property "length", property "a"]
    (evalIn env false (itemOfCall 5) = ⟨[⟨"f", [.int 1]⟩], .ok .null⟩ ∧
      evalIn env false (.coalesce (itemOfCall 5) fallback) =
        ⟨[⟨"f", [.int 1]⟩, ⟨"f", [.int 2]⟩], .ok (.array [.int 2])⟩) ∧
    (evalIn env false (itemOfCall 0) = ⟨[⟨"f", [.int 1]⟩], .ok (.int 1)⟩ ∧
      evalIn env false (.coalesce (itemOfCall 0) fallback) = ⟨[⟨"f", [.int 1]⟩], .ok (.int 1)⟩) ∧
    (evalIn env false negation = ⟨[⟨"f", [.int 1]⟩], .error (.propertyOnNonObject "a" .number)⟩ ∧
      evalIn env false (.coalesce negation fallback) =
        ⟨[⟨"f", [.int 1]⟩], .error (.propertyOnNonObject "a" .number)⟩) ∧
    (evalIn env false (.call "g" []) = ⟨[], .error (.undefinedFunction "g")⟩ ∧
      evalIn env false (.coalesce ((Expr.call "g" []).chain [property "a"]) fallback) =
        ⟨[], .error (.undefinedFunction "g")⟩) ∧
    (evalIn env false chain).result = .error (.propertyOnNonObject "a" .number) ∧
    ∃ w, evalIn env true chain = ⟨[⟨"f", [.int 1]⟩], .ok w⟩ := by
  intro env fallback property negation chain
  have hmissing : evalIn env false (itemOfCall 5) = ⟨[⟨"f", [.int 1]⟩], .ok .null⟩ := rfl
  have hitem : evalIn env false (itemOfCall 0) = ⟨[⟨"f", [.int 1]⟩], .ok (.int 1)⟩ := rfl
  have hnegation : evalIn env false negation =
      ⟨[⟨"f", [.int 1]⟩], .error (.propertyOnNonObject "a" .number)⟩ := rfl
  have hundefined : evalIn env false ((Expr.call "g" []).chain [property "a"]) =
      ⟨[], .error (.undefinedFunction "g")⟩ := rfl
  refine ⟨⟨hmissing, (evalIn_coalesce_of_evalIn env false _ fallback).1 _ _ hmissing⟩,
    ⟨hitem, (evalIn_coalesce_of_evalIn env false _ fallback).1 _ _ hitem⟩,
    ⟨hnegation, (evalIn_coalesce_of_evalIn env false _ fallback).2.1 _ _ hnegation (.inr rfl)⟩,
    ⟨rfl, (evalIn_coalesce_of_evalIn env false _ fallback).2.1 _ _ hundefined (.inl rfl)⟩, rfl,
    (evalIn_coalesce_of_evalIn env false chain fallback).2.2 _ _ _ _ rfl rfl (by simp [property]) rfl⟩

end Evaluation
end Formula
