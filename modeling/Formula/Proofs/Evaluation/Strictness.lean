import Mathlib
import Formula.Proofs.Evaluation.Compositional
import Formula.Proofs.Parsing.Leniency

/-! A strict parse only mentions what was declared, so the evaluation of its tree finds every variable
and every function. -/

namespace Formula

namespace Scope

variable {declared : List Variable} {name : String}

theorem isSome_get?_foldl {key : String} {d : Dict String}
    (h : .aliased key name ∈ declared ∨ (d.get? name).isSome = true) :
    ((declared.foldl (fun d v => match v with
      | .plain _ => d
      | .aliased key name => d.put name key) d).get? name).isSome = true := by
  induction declared generalizing d with
  | nil => simpa using h
  | cons v vs ih =>
    refine ih ?_
    cases v with
    | plain n => simpa using h
    | aliased k n =>
      by_cases hname : name = n
      · exact .inr (by simp [hname, Dict.get?_put_self])
      · simpa [Dict.get?_put_of_ne d k hname, hname] using h

/-- A declared spelling stands for the key of something declared. -/
theorem exists_key_eq {functions : List String} {leniency : Leniency}
    (h : name ∈ spellingsOf declared) :
    ∃ v ∈ declared, v.key = (ofVariables functions declared leniency).key name := by
  change ∃ v ∈ declared, v.key = ((aliasesOf declared).get? name).getD name
  cases hget : (aliasesOf declared).get? name with
  | some key => exact ⟨.aliased key name, aliased_of_get?_aliasesOf hget, rfl⟩
  | none =>
    obtain ⟨v, hv, rfl | hspelling⟩ := mem_spellingsOf.mp h
    · exact ⟨v, hv, rfl⟩
    · cases v with
      | plain n => exact ⟨_, hv, hspelling.symm⟩
      | aliased key n =>
        -- An alias is always found, though perhaps with the key of a later one.
        obtain rfl : name = n := hspelling
        have hsome := isSome_get?_foldl (d := []) (.inl hv)
        change ((aliasesOf declared).get? name).isSome = true at hsome
        rw [hget] at hsome
        cases hsome

end Scope

/-- What a strict parse lets stand at a node of a tree. -/
def Expr.IsDeclared (functions : Registry) (declared : List Variable) : Expr → Prop
  | name n => ∃ v ∈ declared, v.key = n
  | coalescedName n => ∀ v ∈ declared, n ≠ v.key ∧ n ≠ v.spelling
  | call n _ => functions.contains n = true
  | _ => True

section

variable {functions : Registry} {declared : List Variable}

theorem Expr.IsBuilt.isDeclared {allowed : Content → Prop} {e : Expr}
    (h : e.IsBuilt (.ofVariables functions.names declared {}) allowed) :
    e.IsDeclared functions declared := by
  cases h with
  | name _ _ hknown =>
    exact Scope.exists_key_eq (hknown.resolve_left nofun)
  | coalescedName _ _ hunknown =>
    intro v hv
    refine ⟨fun heq => hunknown (.inr ?_), fun heq => hunknown (.inr ?_)⟩
    · exact Scope.mem_spellingsOf.mpr ⟨v, hv, .inl heq⟩
    · exact Scope.mem_spellingsOf.mpr ⟨v, hv, .inr heq⟩
  | call _ _ hknown _ => exact List.contains_iff_mem.mpr (hknown.resolve_right nofun)
  | _ => trivial

theorem Parsing.isDeclared_of_parseTokens {stream : TokenStream} {tree : Expr}
    (h : parseTokens (.ofVariables functions.names declared {}) stream = .ok tree) :
    ∀ d ∈ tree.nodes, d.IsDeclared functions declared := by
  have hbuilt : tree.IsBuilt (.ofVariables functions.names declared {}) fun _ => True :=
    isBuilt_of_parseTokens (fun _ _ => trivial) h
  intro d hd
  obtain hd | ⟨n, rfl⟩ := hbuilt.of_mem_nodes d hd
  · exact hd.isDeclared
  · trivial

end

/-- How an event fails. The reading of a variable does not. -/
def Event.Raises (env : Evaluation.Env) (e : EvalError) : Event → Prop
  | read _ => False
  | apply name arguments => ∃ f, env.functions.get? name = some f ∧
      (f.apply env.host env.context arguments).result = .error e
  | call function arguments => env.host function arguments = .error e

namespace Evaluation

variable (env : Env)

theorem isCompositional_reads (Q : String → Prop) :
    IsCompositional env fun _ _ x => ∀ n, .read n ∈ x.events → Q n where
  mono _ hx := hx
  bind {α β m n x f} hx hf := by
    intro name hname
    cases hresult : x.outcome.result with
    | error e =>
      rw [Traced.events_bind_of_error hresult] at hname
      exact hx name hname
    | ok a =>
      rw [Traced.events_bind_of_ok hresult, List.mem_append] at hname
      exact hname.elim (hx name) (hf a name)
  ofExcept _ := nofun
  call _ _ := by simp [Traced.noting]
  apply _ _ := by simp [Traced.noting]

/-- An undefined function is the failure of the last event. -/
theorem isCompositional_raises : IsCompositional env fun _ _ x => ∀ n,
    x.outcome.result = .error (.undefinedFunction n) →
      ∃ event, x.events.getLast? = some event ∧ event.Raises env (.undefinedFunction n) where
  mono _ hx := hx
  bind {α β m n x f} hx hf := by
    intro name herror
    rw [Traced.outcome_bind] at herror
    cases hresult : x.outcome.result with
    | error e =>
      rw [Outcome.bind_of_error hresult] at herror
      rw [Traced.events_bind_of_error hresult]
      obtain rfl := Except.error.inj herror
      exact hx name hresult
    | ok a =>
      rw [Outcome.bind_of_ok hresult] at herror
      obtain ⟨event, hlast, hraises⟩ := hf a name herror
      rw [Traced.events_bind_of_ok hresult, List.getLast?_append, hlast]
      exact ⟨event, rfl, hraises⟩
  ofExcept hr name herror := absurd herror (hr name)
  call function arguments name herror := ⟨_, rfl, herror⟩
  apply arguments hget name herror := ⟨_, rfl, _, hget, herror⟩

end Evaluation

namespace Parsing

/-- Without a check left out, names in a tree are keys of what was declared, names that were tolerated
before `??` were not, and functions are registered. So in a context that binds the keys no variable is
read that is missing, and if a function is undefined then the host or a registered function said so. -/
theorem declared_of_parseTokens {functions : Registry} {declared : List Variable}
    {stream : TokenStream} {tree : Expr}
    (h : parseTokens (.ofVariables functions.names declared {}) stream = .ok tree) :
    (∀ d ∈ tree.nodes, d.IsDeclared functions declared) ∧
    ∀ host context, (∀ v ∈ declared, (context.get? v.key).isSome = true) →
      (tree.trace host functions context).outcome = tree.eval host functions context ∧
      (∀ n, .read n ∈ (tree.trace host functions context).events →
        (context.get? n).isSome = true) ∧
      ∀ n, (tree.eval host functions context).result = .error (.undefinedFunction n) →
        ∃ event, (tree.trace host functions context).events.getLast? = some event ∧
          event.Raises ⟨host, functions, context⟩ (.undefinedFunction n) := by
  have hdeclared := isDeclared_of_parseTokens h
  refine ⟨hdeclared, fun host context hbound => ⟨tree.outcome_trace .., ?_, ?_⟩⟩
  · refine Expr.trace_of_isCompositional
      (Evaluation.isCompositional_reads ⟨host, functions, context⟩
        fun n => (context.get? n).isSome = true) fun d hd => ?_
    cases d with
    | name n =>
      obtain ⟨v, hv, rfl⟩ := hdeclared _ hd
      intro n hn
      obtain rfl := Event.read.inj (List.mem_singleton.mp hn)
      exact hbound v hv
    | call n arguments => exact fun _ => nofun
    | _ => trivial
  · rw [← Expr.outcome_trace]
    refine Expr.trace_of_isCompositional
      (Evaluation.isCompositional_raises ⟨host, functions, context⟩) fun d hd => ?_
    cases d with
    | name n => exact nofun
    | call n arguments =>
      intro hnone
      have hsome : (functions.get? n).isSome = true :=
        Dict.isSome_get?.mpr (List.contains_iff_mem.mp (hdeclared _ hd))
      rw [hnone] at hsome
      cases hsome
    | _ => trivial

/-- The tokens of `y ?? f(x)[k]`. -/
def indexedCallStream : TokenStream :=
  .ofTokens "y ?? f(x)[k]" [⟨.name, .string "y", 1⟩, ⟨.punctuation, .string "??", 3⟩,
    ⟨.name, .string "f", 6⟩, ⟨.punctuation, .string "(", 7⟩, ⟨.name, .string "x", 8⟩,
    ⟨.punctuation, .string ")", 9⟩, ⟨.punctuation, .string "[", 10⟩, ⟨.name, .string "k", 11⟩,
    ⟨.punctuation, .string "]", 12⟩, .ending 13]

/-- Its tree, if `x` is an alias of `k`. -/
def indexedCall : Expr :=
  .coalesce (.coalescedName "y")
    (.access .index false (.call "f" [.name "k"]) (.name "k") [])

/-- Here the function of the host is registered, but asks for one that is not. -/
theorem declared_of_parseTokens_indexedCall :
    let functions := Registry.put {} ⟨"f", Builtin.callScript "f", .hosted "f"⟩
    let declared := [Variable.aliased "k" "x"]
    let host : Host := fun _ _ => .error (.undefinedFunction "g")
    let context : Context := [("k", .int 0)]
    parseTokens (.ofVariables functions.names declared {}) indexedCallStream = .ok indexedCall ∧
    (∀ d ∈ indexedCall.nodes, d.IsDeclared functions declared) ∧
    (∀ v ∈ declared, (context.get? v.key).isSome = true) ∧
    (∀ n, .read n ∈ (indexedCall.trace host functions context).events →
      (context.get? n).isSome = true) ∧
    (indexedCall.eval host functions context).result = .error (.undefinedFunction "g") ∧
    ∃ event, (indexedCall.trace host functions context).events.getLast? = some event ∧
      event.Raises ⟨host, functions, context⟩ (.undefinedFunction "g") := by
  intro functions declared host context
  have hparse : parseTokens (.ofVariables functions.names declared {}) indexedCallStream =
      .ok indexedCall := by
    cbv
  have hbound : ∀ v ∈ declared, (context.get? v.key).isSome = true := by decide
  have herror : (indexedCall.eval host functions context).result = .error (.undefinedFunction "g") :=
    rfl
  obtain ⟨hdeclared, heval⟩ := declared_of_parseTokens hparse
  obtain ⟨-, hreads, hraises⟩ := heval host context hbound
  exact ⟨hparse, hdeclared, hbound, hreads, herror, hraises "g" herror⟩

end Parsing
end Formula
