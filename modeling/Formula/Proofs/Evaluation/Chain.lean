import Mathlib
import Formula.Parsing
import Formula.Proofs.Evaluation.Trace

/-! Null in access chains. A null-safe step that meets null gives up the rest of the chain, and on any
other object it is a plain step. To the left of `??` a plain step that meets null gives null as well, but
an index is evaluated before its object is looked at. -/

namespace Formula

namespace Outcome

variable {α β γ : Type} {x : Outcome α}

protected theorem bind_assoc (x : Outcome α) (f : α → Outcome β) (g : β → Outcome γ) :
    x >>= f >>= g = x >>= fun a => f a >>= g := by
  cases hx : x.result with
  | error e => rw [bind_of_error hx, bind_of_error hx, bind_of_error rfl]
  | ok a =>
    rw [bind_of_ok hx, bind_of_ok hx]
    cases hf : (f a).result with
    | error e => rw [bind_of_error rfl, bind_of_error hf]
    | ok b => rw [bind_of_ok rfl, bind_of_ok hf, List.append_assoc]

protected theorem bind_pure (x : Outcome α) : x >>= pure = x := by
  obtain ⟨calls, result⟩ := x
  cases result with
  | error e => rfl
  | ok a => exact congrArg (Outcome.mk · _) (List.append_nil calls)

instance : LawfulMonad Outcome :=
  LawfulMonad.mk' Outcome Outcome.bind_pure (fun _ _ => rfl) Outcome.bind_assoc

/-- What follows matters for the result only. -/
theorem bind_congr_of_ok {f g : α → Outcome β} (h : ∀ a, x.result = .ok a → f a = g a) :
    x >>= f = x >>= g := by
  cases hx : x.result with
  | error e => rw [bind_of_error hx, bind_of_error hx]
  | ok a => rw [bind_of_ok hx, bind_of_ok hx, h a hx]

end Outcome

theorem Value.isNull_iff {v : Value} : v.isNull = true ↔ v = .null := by
  cases v <;> simp [isNull]

/-- One step of an access chain. -/
structure AccessStep where
  kind : AccessKind
  nullSafe : Bool
  key : Expr
  arguments : List Expr

namespace AccessStep

def on (step : AccessStep) (object : Expr) : Expr :=
  .access step.kind step.nullSafe object step.key step.arguments

/-- The step with a `?.`. -/
def guarded (step : AccessStep) : AccessStep := { step with nullSafe := true }

/-- The step without one. -/
def plain (step : AccessStep) : AccessStep := { step with nullSafe := false }

end AccessStep

/-- Steps on an object, one on top of the other. -/
def Expr.chain (object : Expr) (steps : List AccessStep) : Expr :=
  steps.foldl (fun object step => step.on object) object

namespace Evaluation

variable {env : Env} {soft : Bool}

/-- What a step makes of that which its object comes to. -/
def reach (env : Env) (soft : Bool) (step : AccessStep) : Access → Outcome Access
  | .shortCircuited => return .shortCircuited
  | .value o => do
    if step.nullSafe && o.isNull then return .shortCircuited
    match step.kind with
    | .property => return .value (← .ofExcept (property soft o (memberName step.key)))
    | .method =>
      match ← .ofExcept (methodOf soft o (memberName step.key)) with
      | some f =>
        let vs ← walkAll env step.arguments
        return .value (← .call env.host f vs)
      | none => return .value .null
    | .index =>
      let k ← settle (walk env false step.key)
      return .value (← .ofExcept (item soft o k))

def follow (env : Env) (soft : Bool) : List AccessStep → Access → Outcome Access
  | [], a => return a
  | step :: steps, a => reach env soft step a >>= follow env soft steps

theorem walk_on (step : AccessStep) (object : Expr) :
    walk env soft (step.on object) = walk env soft object >>= reach env soft step := by
  rw [AccessStep.on, walk]
  refine bind_congr fun a => ?_
  cases a <;> rfl

theorem walk_chain (object : Expr) (steps : List AccessStep) :
    walk env soft (object.chain steps) = walk env soft object >>= follow env soft steps := by
  induction steps generalizing object with
  | nil => exact (bind_pure _).symm
  | cons step steps ih =>
    show walk env soft ((step.on object).chain steps) = _
    rw [ih, walk_on, bind_assoc]
    rfl

theorem follow_shortCircuited (steps : List AccessStep) :
    follow env soft steps .shortCircuited = pure .shortCircuited := by
  induction steps with
  | nil => rfl
  | cons step steps ih => exact ih

theorem reach_guarded_of_null (step : AccessStep) {a : Access} (h : a.toValue = .null) :
    reach env soft step.guarded a = pure .shortCircuited := by
  cases a with
  | shortCircuited => rfl
  | value o =>
    obtain rfl : o = .null := h
    rfl

/-- Only null tells a null-safe step from a plain one. -/
theorem reach_guarded_of_ne_null (step : AccessStep) {a : Access} (h : a.toValue ≠ .null) :
    reach env soft step.guarded a = reach env soft step.plain a := by
  cases a with
  | shortCircuited => rfl
  | value o =>
    have hnull : o.isNull = false := Bool.eq_false_iff.mpr (mt Value.isNull_iff.mp h)
    simp only [reach, AccessStep.guarded, AccessStep.plain, hnull, Bool.and_false]

theorem evalIn_eq (e : Expr) : evalIn env soft e = walk env soft e >>= fun a => pure a.toValue := rfl

theorem evalIn_chain (object : Expr) (steps : List AccessStep) :
    evalIn env soft (object.chain steps) =
      walk env soft object >>= fun a => settle (follow env soft steps a) := by
  rw [evalIn, walk_chain, settle, bind_assoc]
  rfl

/-- A value comes from a step that gave it, or from a chain that was given up. -/
theorem exists_access_of_evalIn {object : Expr} {v : Value}
    (h : (evalIn env soft object).result = .ok v) :
    ∃ a : Access, a.toValue = v ∧ (walk env soft object).result = .ok a := by
  rw [evalIn_eq] at h
  obtain ⟨a, hwalk, hvalue⟩ := Outcome.exists_of_bind_eq_ok h
  exact ⟨a, Except.ok.inj hvalue, hwalk⟩

/-- A null-safe step guards all that stands on top of it, and nothing else. If its object is null the
whole chain is, and nothing more is called; whatever else comes of its object, it is a plain step. -/
theorem evalIn_chain_guarded (env : Env) (soft : Bool) (object : Expr) (step : AccessStep)
    (steps : List AccessStep) :
    (∀ calls, evalIn env soft object = ⟨calls, .ok .null⟩ →
      evalIn env soft (object.chain (step.guarded :: steps)) = ⟨calls, .ok .null⟩) ∧
    ((evalIn env soft object).result ≠ .ok .null →
      evalIn env soft (object.chain (step.guarded :: steps)) =
        evalIn env soft (object.chain (step.plain :: steps))) := by
  refine ⟨fun calls h => ?_, fun h => ?_⟩
  · obtain ⟨a, ha, hobject⟩ := exists_access_of_evalIn (congrArg Outcome.result h)
    calc evalIn env soft (object.chain (step.guarded :: steps))
      _ = walk env soft object >>= fun a => settle (follow env soft (step.guarded :: steps) a) :=
        evalIn_chain object _
      _ = walk env soft object >>= fun a => pure a.toValue := by
        refine Outcome.bind_congr_of_ok fun b hb => ?_
        obtain rfl := Except.ok.inj (hobject.symm.trans hb)
        rw [follow, reach_guarded_of_null step ha, pure_bind, follow_shortCircuited, ha]
        rfl
      _ = ⟨calls, .ok .null⟩ := h
  · rw [evalIn_chain, evalIn_chain]
    refine Outcome.bind_congr_of_ok fun a hobject => ?_
    have ha : a.toValue ≠ .null := by
      intro ha
      rw [evalIn_eq, Outcome.bind_of_ok hobject, ha] at h
      exact h rfl
    rw [follow, follow, reach_guarded_of_ne_null step ha]

/-- A function `f` of the host that gives a list of its arguments back. -/
def echoing (context : Context) : Env where
  host _ arguments := .ok (.array arguments)
  functions := (Registry.withBuiltins none).put
    { name := "f", script := Builtin.callScript "f", body := .hosted "f" }
  context := context

/-- The item `f(1)[place]`. -/
def itemOfCall (place : Int64) : Expr :=
  .access .index false (.call "f" [.literal (.int 1)]) (.literal (.int place)) []

/-- In `f(1)[5]?.m(f(2))[f(3)]` only the first call is made, and `f(1)[0]?.m(f(2))` fails like
`f(1)[0].m(f(2))`. -/
theorem evalIn_chain_guarded_missingItem :
    let step : AccessStep := ⟨.method, true, .identifier "m", [.call "f" [.literal (.int 2)]]⟩
    let behind : AccessStep := ⟨.index, false, .call "f" [.literal (.int 3)], []⟩
    evalIn (echoing []) false (itemOfCall 5) = ⟨[⟨"f", [.int 1]⟩], .ok .null⟩ ∧
    evalIn (echoing []) false ((itemOfCall 5).chain [step.guarded, behind]) =
      ⟨[⟨"f", [.int 1]⟩], .ok .null⟩ ∧
    (evalIn (echoing []) false (itemOfCall 0)).result = .ok (.int 1) ∧
    evalIn (echoing []) false ((itemOfCall 0).chain [step.guarded]) =
      evalIn (echoing []) false ((itemOfCall 0).chain [step.plain]) ∧
    (evalIn (echoing []) false ((itemOfCall 0).chain [step.plain])).result =
      .error (.methodOnNonObject "m" .number) := by
  intro step behind
  have hnull : evalIn (echoing []) false (itemOfCall 5) = ⟨[⟨"f", [.int 1]⟩], .ok .null⟩ := rfl
  have hitem : (evalIn (echoing []) false (itemOfCall 0)).result = .ok (.int 1) := rfl
  refine ⟨hnull, (evalIn_chain_guarded _ false _ step [behind]).1 _ hnull, hitem,
    (evalIn_chain_guarded _ false _ step []).2 ?_, rfl⟩
  rw [hitem]
  exact nofun

/-- The indices of the steps up to the next null-safe one. -/
def indicesAhead (steps : List AccessStep) : List Expr :=
  ((steps.takeWhile fun step => !step.nullSafe).filter (·.kind == .index)).map AccessStep.key

/-- The indices that are evaluated when the object of the steps is null: none, if it is null because
the chain was given up. -/
def Access.indicesAhead : Access → List AccessStep → List Expr
  | value _, steps => Evaluation.indicesAhead steps
  | shortCircuited, _ => []

-- By induction on the steps. A property or a method of null is null at once; an index is evaluated,
-- and then the item is null.
theorem settle_follow_null (steps : List AccessStep) :
    settle (follow env true steps (.value .null)) =
      walkAll env (indicesAhead steps) >>= fun _ => pure .null := by
  induction steps with
  | nil => rfl
  | cons step steps ih =>
    obtain ⟨kind, nullSafe, key, arguments⟩ := step
    cases nullSafe with
    | true =>
      show settle (follow env true steps .shortCircuited) = _
      rw [follow_shortCircuited]
      rfl
    | false =>
      cases kind with
      | property | method => exact ih
      | index =>
        calc settle (follow env true (⟨.index, false, key, arguments⟩ :: steps) (.value .null))
          _ = settle ((evalIn env false key >>= fun _ => pure (.value .null)) >>=
              follow env true steps) := rfl
          _ = evalIn env false key >>= fun _ => settle (follow env true steps (.value .null)) := by
            rw [bind_assoc, settle, bind_assoc]
            rfl
          _ = walkAll env (indicesAhead (⟨.index, false, key, arguments⟩ :: steps)) >>=
              fun _ => pure .null := by
            show _ = walkAll env (key :: indicesAhead steps) >>= fun _ => pure Value.null
            simp only [ih, walkAll, bind_assoc, pure_bind]
            rfl

theorem settle_follow_of_null (steps : List AccessStep) {a : Access} (h : a.toValue = .null) :
    settle (follow env true steps a) =
      walkAll env (a.indicesAhead steps) >>= fun _ => pure .null := by
  cases a with
  | shortCircuited =>
    rw [follow_shortCircuited]
    rfl
  | value o =>
    obtain rfl : o = .null := h
    exact settle_follow_null steps

theorem evalIn_coalesce (left fallback : Expr) :
    evalIn env soft (.coalesce left fallback) = do
      let l ← evalIn env true left
      if l.isNull then evalIn env false fallback else return l := by
  rw [evalIn, settle, walk, bind_assoc]
  refine bind_congr fun l => ?_
  split
  · rw [bind_assoc]
    exact bind_pure _
  · rfl

/-- If the object of some step to the left of `??` is null, then the left side is null, unless an
index ahead fails. The indices up to the next null-safe step are evaluated on the way, and no arguments,
calls or other indices; where there are none it is as if the object stood alone on the left. -/
theorem evalIn_coalesce_of_null {object : Expr} {a : Access}
    (hobject : (walk env true object).result = .ok a) (hnull : a.toValue = .null)
    (steps : List AccessStep) :
    (evalIn env true (object.chain steps) = do
      let _ ← evalIn env true object
      let _ ← walkAll env (a.indicesAhead steps)
      return .null) ∧
    (∀ soft fallback, evalIn env soft (.coalesce (object.chain steps) fallback) = do
      let _ ← evalIn env true object
      let _ ← walkAll env (a.indicesAhead steps)
      evalIn env false fallback) ∧
    (a.indicesAhead steps = [] →
      evalIn env true (object.chain steps) = evalIn env true object ∧
      ∀ soft fallback, evalIn env soft (.coalesce (object.chain steps) fallback) = do
        let _ ← evalIn env true object
        evalIn env false fallback) := by
  have hleft : evalIn env true (object.chain steps) = (do
      let _ ← evalIn env true object
      let _ ← walkAll env (a.indicesAhead steps)
      return .null) := by
    rw [evalIn_chain, evalIn_eq, bind_assoc]
    refine Outcome.bind_congr_of_ok fun b hb => ?_
    obtain rfl := Except.ok.inj (hobject.symm.trans hb)
    exact settle_follow_of_null steps hnull
  have hcoalesce (soft : Bool) (fallback : Expr) :
      evalIn env soft (.coalesce (object.chain steps) fallback) = (do
        let _ ← evalIn env true object
        let _ ← walkAll env (a.indicesAhead steps)
        evalIn env false fallback) := by
    rw [evalIn_coalesce, hleft, bind_assoc]
    refine bind_congr fun _ => ?_
    rw [bind_assoc]
    rfl
  refine ⟨hleft, hcoalesce, fun hindices => ⟨?_, fun soft fallback => ?_⟩⟩
  · rw [evalIn_chain, evalIn_eq]
    refine Outcome.bind_congr_of_ok fun b hb => ?_
    obtain rfl := Except.ok.inj (hobject.symm.trans hb)
    rw [settle_follow_of_null steps hnull, hindices, hnull]
    rfl
  · rw [hcoalesce, hindices]
    rfl

/-- In `f(1)[5].m(f(2))[f(3)]?.[f(4)] ?? 0` the calls with 1 and 3 are made. -/
theorem evalIn_coalesce_missingItem :
    let steps : List AccessStep := [⟨.method, false, .identifier "m", [.call "f" [.literal (.int 2)]]⟩,
      ⟨.index, false, .call "f" [.literal (.int 3)], []⟩,
      ⟨.index, true, .call "f" [.literal (.int 4)], []⟩]
    (walk (echoing []) true (itemOfCall 5)).result = .ok (.value .null) ∧
    indicesAhead steps = [.call "f" [.literal (.int 3)]] ∧
    evalIn (echoing []) false (.coalesce ((itemOfCall 5).chain steps) (.literal (.int 0))) =
      ⟨[⟨"f", [.int 1]⟩, ⟨"f", [.int 3]⟩], .ok (.int 0)⟩ := by
  intro steps
  have hnull : (walk (echoing []) true (itemOfCall 5)).result = .ok (.value .null) := rfl
  refine ⟨hnull, rfl, ?_⟩
  rw [(evalIn_coalesce_of_null hnull rfl steps).2.1]
  rfl

/-- The tokens of `nothing[f(1)] ?? 2`. -/
def indexedNullStream : TokenStream :=
  .ofTokens "nothing[f(1)] ?? 2" [⟨.name, .string "nothing", 1⟩, ⟨.punctuation, .string "[", 8⟩,
    ⟨.name, .string "f", 9⟩, ⟨.punctuation, .string "(", 10⟩, ⟨.number, .int 1, 11⟩,
    ⟨.punctuation, .string ")", 12⟩, ⟨.punctuation, .string "]", 13⟩,
    ⟨.punctuation, .string "??", 15⟩, ⟨.number, .int 2, 18⟩, .ending 19]

/-- The call is made, although the object of the index is null. In its place a failure would be that
of the whole. -/
theorem evalIn_coalesce_indexedNull :
    let env := echoing [("nothing", .null)]
    let step (key : Expr) : AccessStep := ⟨.index, false, key, []⟩
    let call : Expr := .call "f" [.literal (.int 1)]
    let property : Expr := .access .property false (.name "nothing") (.identifier "a") []
    parseTokens (.ofVariables env.functions.names (some [.plain "nothing"]) {}) indexedNullStream =
      .ok (.coalesce ((Expr.name "nothing").chain [step call]) (.literal (.int 2))) ∧
    evalIn env true (.name "nothing") = ⟨[], .ok .null⟩ ∧
    evalIn env true ((Expr.name "nothing").chain [step call]) ≠ ⟨[], .ok .null⟩ ∧
    evalIn env false (.coalesce ((Expr.name "nothing").chain [step call]) (.literal (.int 2))) =
      ⟨[⟨"f", [.int 1]⟩], .ok (.int 2)⟩ ∧
    evalIn env false (.coalesce ((Expr.name "nothing").chain [step property]) (.literal (.int 2))) =
      ⟨[], .error (.propertyOnNonObject "a" .null)⟩ := by
  refine ⟨by cbv, rfl, ?_, rfl, rfl⟩
  intro h
  exact absurd (congrArg (List.length ∘ Outcome.calls) h) (by decide)

end Evaluation
end Formula
