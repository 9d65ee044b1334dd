import Formula.Evaluation
import Formula.Proofs.Expr.Nodes

/-! Evaluation with a note of whatever it asks of its surroundings. Without the notes it is evaluation
itself. -/

namespace Formula

namespace Outcome

variable {α β : Type} {x : Outcome α}

theorem bind_of_ok {a : α} (h : x.result = .ok a) (f : α → Outcome β) :
    x >>= f = ⟨x.calls ++ (f a).calls, (f a).result⟩ := by
  show Outcome.bind x f = _
  rw [Outcome.bind, h]

theorem bind_of_error {e : EvalError} (h : x.result = .error e) (f : α → Outcome β) :
    x >>= f = ⟨x.calls, .error e⟩ := by
  show Outcome.bind x f = _
  rw [Outcome.bind, h]

/-- What succeeds has succeeded in both of its parts. -/
theorem exists_of_bind_eq_ok {f : α → Outcome β} {b : β} (h : (x >>= f).result = .ok b) :
    ∃ a, x.result = .ok a ∧ (f a).result = .ok b := by
  cases hx : x.result with
  | error e =>
    rw [bind_of_error hx] at h
    cases h
  | ok a =>
    rw [bind_of_ok hx] at h
    exact ⟨a, rfl, h⟩

end Outcome

/-- A variable is read, a registered function is applied, or a method, which is a function of the host,
is called. -/
inductive Event
  | read (name : String)
  | apply (function : String) (arguments : List Value)
  | call (function : String) (arguments : List Value)

/-- An outcome, and the events on the way to it, in order. -/
structure Traced (α : Type) where
  events : List Event
  outcome : Outcome α

namespace Traced

variable {α β : Type}

/-- After a failure nothing more happens. -/
protected def bind (x : Traced α) (f : α → Traced β) : Traced β where
  events := x.events ++ match x.outcome.result with
    | .ok a => (f a).events
    | .error _ => []
  outcome := do (f (← x.outcome)).outcome

instance : Monad Traced where
  pure a := ⟨[], pure a⟩
  bind := Traced.bind

def ofOutcome (x : Outcome α) : Traced α := ⟨[], x⟩

def noting (event : Event) (x : Outcome α) : Traced α := ⟨[event], x⟩

/-- A variable that the context lacks reads as null. -/
def read (context : Context) (name : String) : Traced Value :=
  noting (.read name) (pure ((context.get? name).getD .null))

theorem events_bind_of_ok {x : Traced α} {a : α} (h : x.outcome.result = .ok a)
    (f : α → Traced β) : (x >>= f).events = x.events ++ (f a).events := by
  show (Traced.bind x f).events = _
  rw [Traced.bind, h]

theorem events_bind_of_error {x : Traced α} {e : EvalError} (h : x.outcome.result = .error e)
    (f : α → Traced β) : (x >>= f).events = x.events := by
  show (Traced.bind x f).events = _
  rw [Traced.bind, h, List.append_nil]

@[simp] theorem outcome_bind (x : Traced α) (f : α → Traced β) :
    (x >>= f).outcome = x.outcome >>= fun a => (f a).outcome := rfl

@[simp] theorem outcome_ofOutcome (x : Outcome α) : (ofOutcome x).outcome = x := rfl

@[simp] theorem outcome_noting (event : Event) (x : Outcome α) : (noting event x).outcome = x := rfl

@[simp] theorem outcome_ite {c : Prop} [Decidable c] (x y : Traced α) :
    (if c then x else y).outcome = if c then x.outcome else y.outcome := apply_ite outcome c x y

end Traced

namespace Evaluation

def settleTraced (x : Traced Access) : Traced Value := do return (← x).toValue

@[simp] theorem outcome_settleTraced (x : Traced Access) :
    (settleTraced x).outcome = settle x.outcome := rfl

mutual

def trace (env : Env) (soft : Bool) : Expr → Traced Access
  | .const value _ => return .value value
  | .name n => return .value (← Traced.read env.context n)
  | .coalescedName _ => return .value .null
  | .unary op e => do
    let v ← settleTraced (trace env false e)
    return .value (← .ofOutcome (.ofExcept (Operation.unary op v)))
  | .binary op left right => do
    let l ← settleTraced (trace env false left)
    if decides op l then return .value l
    let r ← settleTraced (trace env false right)
    if op.shortCircuits then return .value r
    return .value (← .ofOutcome (.ofExcept (Operation.binary op l r)))
  | .conditional condition yes no => do
    let c ← settleTraced (trace env false condition)
    if c.isTruthy then return .value (← settleTraced (trace env false yes))
    else return .value (← settleTraced (trace env false no))
  | .coalesce left fallback => do
    let l ← settleTraced (trace env true left)
    if l.isNull then return .value (← settleTraced (trace env false fallback)) else return .value l
  | .access kind nullSafe object key arguments => do
    match ← trace env soft object with
    | .shortCircuited => return .shortCircuited
    | .value o =>
      if nullSafe && o.isNull then return .shortCircuited
      match kind with
      | .property => return .value (← .ofOutcome (.ofExcept (property soft o (memberName key))))
      | .method =>
        match ← .ofOutcome (.ofExcept (methodOf soft o (memberName key))) with
        | some f =>
          let vs ← traceAll env arguments
          return .value (← .noting (.call f vs) (.call env.host f vs))
        | none => return .value .null
      | .index =>
        let k ← settleTraced (trace env false key)
        return .value (← .ofOutcome (.ofExcept (item soft o k)))
  | .list es => return .value (.array (← traceAll env es))
  | .hash entries => return .value (.object (← traceEntries env [] entries))
  | .call name arguments =>
    match env.functions.get? name with
    | none => .ofOutcome (.error (.undefinedFunction name))
    | some f => do
      let vs ← traceAll env arguments
      return .value (← .noting (.apply name vs) (f.apply env.host env.context vs))

def traceAll (env : Env) : List Expr → Traced (List Value)
  | [] => return []
  | e :: es => do
    let v ← settleTraced (trace env false e)
    let vs ← traceAll env es
    return v :: vs

def traceEntries (env : Env) (fields : Dict Value) : List (Expr × Expr) → Traced (Dict Value)
  | [] => return fields
  | (key, value) :: entries => do
    let k ← settleTraced (trace env false key)
    let v ← settleTraced (trace env false value)
    traceEntries env (fields.put k.text v) entries

end

variable {env : Env}

-- By induction on the tree. Once the outcomes of the parts are known the rest is evaluation itself, by
-- definition; only a choice or a match has to be taken apart first.
mutual

theorem outcome_trace (soft : Bool) : ∀ e : Expr, (trace env soft e).outcome = walk env soft e
  | .const _ _ | .name _ | .coalescedName _ => rfl
  | .unary op e => by
    simp only [trace, walk, Traced.outcome_bind, outcome_settleTraced, outcome_trace false e]
    rfl
  | .binary op left right => by
    simp only [trace, walk, Traced.outcome_bind, outcome_settleTraced, outcome_trace false left,
      outcome_trace false right, Traced.outcome_ite]
    rfl
  | .conditional condition yes no => by
    simp only [trace, walk, Traced.outcome_bind, outcome_settleTraced, outcome_trace false condition,
      outcome_trace false yes, outcome_trace false no, Traced.outcome_ite]
    rfl
  | .coalesce left fallback => by
    simp only [trace, walk, Traced.outcome_bind, outcome_settleTraced, outcome_trace true left,
      outcome_trace false fallback, Traced.outcome_ite]
    rfl
  | .access kind nullSafe object key arguments => by
    simp only [trace, walk, Traced.outcome_bind, outcome_trace soft object]
    congr 1
    funext a
    cases a with
    | shortCircuited => rfl
    | value o =>
      simp only [Traced.outcome_ite]
      cases kind with
      | property => rfl
      | method =>
        simp only [Traced.outcome_bind, Traced.outcome_ofOutcome]
        congr 2
        funext f
        cases f with
        | none => rfl
        | some f =>
          simp only [Traced.outcome_bind, outcome_traceAll arguments]
          rfl
      | index =>
        simp only [Traced.outcome_bind, outcome_settleTraced, outcome_trace false key]
        rfl
  | .list es => by
    simp only [trace, walk, Traced.outcome_bind, outcome_traceAll es]
    rfl
  | .hash entries => by
    simp only [trace, walk, Traced.outcome_bind, outcome_traceEntries [] entries]
    rfl
  | .call name arguments => by
    simp only [trace, walk]
    cases env.functions.get? name with
    | none => rfl
    | some f =>
      simp only [Traced.outcome_bind, outcome_traceAll arguments]
      rfl

theorem outcome_traceAll : ∀ es : List Expr, (traceAll env es).outcome = walkAll env es
  | [] => rfl
  | e :: es => by
    simp only [traceAll, walkAll, Traced.outcome_bind, outcome_settleTraced, outcome_trace false e,
      outcome_traceAll es]
    rfl

theorem outcome_traceEntries (fields : Dict Value) : ∀ entries : List (Expr × Expr),
    (traceEntries env fields entries).outcome = walkEntries env fields entries
  | [] => rfl
  | (key, value) :: entries => by
    simp only [traceEntries, walkEntries, Traced.outcome_bind, outcome_settleTraced,
      outcome_trace false key, outcome_trace false value, outcome_traceEntries _ entries]

end

end Evaluation

/-- The value of a tree in a context, with the events on the way to it. -/
def Expr.trace (host : Host) (functions : Registry) (context : Context) (e : Expr) : Traced Value :=
  Evaluation.settleTraced (Evaluation.trace ⟨host, functions, context⟩ false e)

theorem Expr.outcome_trace (host : Host) (functions : Registry) (context : Context) (e : Expr) :
    (e.trace host functions context).outcome = e.eval host functions context := by
  rw [trace, Evaluation.outcome_settleTraced, Evaluation.outcome_trace, eval, Evaluation.evalIn]

end Formula
