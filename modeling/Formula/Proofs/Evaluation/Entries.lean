import Mathlib
import Formula.Proofs.Dict
import Formula.Proofs.Evaluation.Chain
import Formula.Proofs.Evaluation.Trace

/-! Object literals: their keys and values are evaluated once each, in the order of the source, and of
equal keys the last value stands in the place of the first. -/

namespace Formula

namespace Traced

variable {α β : Type} {x : Traced α}

theorem bind_of_ok {a : α} (h : x.outcome.result = .ok a) (f : α → Traced β) :
    x >>= f = ⟨x.events ++ (f a).events,
      ⟨x.outcome.calls ++ (f a).outcome.calls, (f a).outcome.result⟩⟩ := by
  have houtcome : (x >>= f).outcome =
      ⟨x.outcome.calls ++ (f a).outcome.calls, (f a).outcome.result⟩ := by
    rw [outcome_bind, Outcome.bind_of_ok h]
  rw [← events_bind_of_ok h f, ← houtcome]

theorem bind_of_error {e : EvalError} (h : x.outcome.result = .error e) (f : α → Traced β) :
    x >>= f = ⟨x.events, ⟨x.outcome.calls, .error e⟩⟩ := by
  have houtcome : (x >>= f).outcome = ⟨x.outcome.calls, .error e⟩ := by
    rw [outcome_bind, Outcome.bind_of_error h]
  rw [← houtcome, ← events_bind_of_error h f]

end Traced

namespace Evaluation

variable {env : Env} {soft : Bool} {fields : Dict Value} {entries : List (Expr × Expr)}
  {pairs : List (Value × Value)}

def traceIn (env : Env) (soft : Bool) (e : Expr) : Traced Value := settleTraced (trace env soft e)

theorem outcome_traceIn (e : Expr) : (traceIn env soft e).outcome = evalIn env soft e := by
  rw [traceIn, outcome_settleTraced, outcome_trace, evalIn]

theorem result_traceIn (e : Expr) :
    (traceIn env soft e).outcome.result = (evalIn env soft e).result := by
  rw [outcome_traceIn]

/-- Keys and values in the order of the source. -/
def parts (entries : List (Expr × Expr)) : List Expr := entries.flatMap fun (key, value) => [key, value]

/-- The events of expressions that are evaluated one after another. -/
def eventsOf (env : Env) (es : List Expr) : List Event := es.flatMap fun e => (traceIn env false e).events

def callsOf (env : Env) (es : List Expr) : List Call := es.flatMap fun e => (evalIn env false e).calls

theorem eventsOf_cons (e : Expr) (es : List Expr) :
    eventsOf env (e :: es) = (traceIn env false e).events ++ eventsOf env es := rfl

theorem callsOf_cons (e : Expr) (es : List Expr) :
    callsOf env (e :: es) = (traceIn env false e).outcome.calls ++ callsOf env es := by
  rw [outcome_traceIn]
  rfl

/-- A key and a value that an entry comes to. -/
def Yields (env : Env) (entry : Expr × Expr) (pair : Value × Value) : Prop :=
  (evalIn env false entry.1).result = .ok pair.1 ∧ (evalIn env false entry.2).result = .ok pair.2

theorem traceEntries_of_ok (h : List.Forall₂ (Yields env) entries pairs) (fields : Dict Value) :
    traceEntries env fields entries = ⟨eventsOf env (parts entries),
      ⟨callsOf env (parts entries), .ok (fields.putAll (pairs.map fun p => (p.1.text, p.2)))⟩⟩ := by
  induction h generalizing fields with
  | nil => rfl
  | @cons entry pair entries pairs hentry _ ih =>
    obtain ⟨key, value⟩ := entry
    have hkey : (traceIn env false key).outcome.result = .ok pair.1 := (result_traceIn key).trans hentry.1
    have hvalue : (traceIn env false value).outcome.result = .ok pair.2 :=
      (result_traceIn value).trans hentry.2
    have hparts : parts ((key, value) :: entries) = key :: value :: parts entries := rfl
    rw [traceEntries, ← traceIn, Traced.bind_of_ok hkey, ← traceIn, Traced.bind_of_ok hvalue, ih,
      hparts]
    simp only [eventsOf_cons, callsOf_cons]
    rfl

/-- Up to the first part that fails all are evaluated, and none after it. -/
theorem traceEntries_of_error {before after : List Expr} {e : Expr} {error : EvalError}
    (hparts : parts entries = before ++ e :: after)
    (hbefore : ∀ d ∈ before, ∃ v, (evalIn env false d).result = .ok v)
    (he : (evalIn env false e).result = .error error) (fields : Dict Value) :
    traceEntries env fields entries = ⟨eventsOf env (before ++ [e]),
      ⟨callsOf env (before ++ [e]), .error error⟩⟩ := by
  have hfails : (traceIn env false e).outcome.result = .error error := (result_traceIn e).trans he
  induction entries generalizing before fields with
  | nil => simp [parts] at hparts
  | cons entry entries ih =>
    -- What fails is the key of the first entry, or its value, or stands in a later entry.
    obtain ⟨key, value⟩ := entry
    rw [traceEntries, ← traceIn]
    rcases before with _ | ⟨d, before⟩
    · obtain ⟨rfl, -⟩ : key = e ∧ value :: parts entries = after := List.cons.inj hparts
      rw [Traced.bind_of_error hfails]
      simp [eventsOf, callsOf, outcome_traceIn]
    obtain ⟨rfl, hrest⟩ : key = d ∧ value :: parts entries = before ++ e :: after := List.cons.inj hparts
    rw [List.forall_mem_cons] at hbefore
    obtain ⟨⟨k, hk⟩, hbefore⟩ := hbefore
    rw [Traced.bind_of_ok ((result_traceIn key).trans hk), ← traceIn]
    rcases before with _ | ⟨d, before⟩
    · obtain ⟨rfl, -⟩ : value = e ∧ parts entries = after := List.cons.inj hrest
      rw [Traced.bind_of_error hfails]
      simp [eventsOf, callsOf, outcome_traceIn]
    obtain ⟨rfl, htail⟩ : value = d ∧ parts entries = before ++ e :: after := List.cons.inj hrest
    rw [List.forall_mem_cons] at hbefore
    obtain ⟨⟨v, hv⟩, hbefore⟩ := hbefore
    rw [Traced.bind_of_ok ((result_traceIn value).trans hv), ih htail hbefore]
    simp only [List.cons_append, eventsOf_cons, callsOf_cons]

theorem traceIn_hash {events : List Event} {calls : List Call} {r : Except EvalError (Dict Value)}
    (h : traceEntries env [] entries = ⟨events, ⟨calls, r⟩⟩) (soft : Bool) :
    traceIn env soft (.hash entries) = ⟨events, ⟨calls, r.map .object⟩⟩ := by
  rw [traceIn, settleTraced, trace, h]
  cases r with
  | error error =>
    rw [Traced.bind_of_error rfl, Traced.bind_of_error rfl]
    rfl
  | ok fields =>
    have hnoEvents : events ++ [] ++ [] = events := by simp
    have hnoCalls : calls ++ [] ++ [] = calls := by simp
    rw [Traced.bind_of_ok rfl, Traced.bind_of_ok rfl]
    exact congrArg₂ (fun events calls => (⟨events, ⟨calls, .ok (.object fields)⟩⟩ : Traced Value))
      hnoEvents hnoCalls

/-- If all keys and values evaluate, the fields are the texts of the keys as they first appear, each with the
value that stands last under it. Otherwise the first failure among keys and values is the result. In
either case what is evaluated is so once, in the order of the source, each key before its value. -/
theorem evalIn_hash (env : Env) (soft : Bool) (entries : List (Expr × Expr)) :
    (∀ pairs, List.Forall₂ (Yields env) entries pairs →
      ∃ fields : Dict Value,
        evalIn env soft (.hash entries) = ⟨callsOf env (parts entries), .ok (.object fields)⟩ ∧
        (traceIn env soft (.hash entries)).events = eventsOf env (parts entries) ∧
        fields.keys.Nodup ∧ fields.keys = (pairs.map fun p => p.1.text).eraseDups ∧
        ∀ key value, fields.get? key = some value ↔
          ∃ before k after, pairs = before ++ (k, value) :: after ∧ k.text = key ∧
            ∀ p ∈ after, p.1.text ≠ key) ∧
    ∀ before e after error, parts entries = before ++ e :: after →
      (∀ d ∈ before, ∃ v, (evalIn env false d).result = .ok v) →
      (evalIn env false e).result = .error error →
      evalIn env soft (.hash entries) = ⟨callsOf env (before ++ [e]), .error error⟩ ∧
      (traceIn env soft (.hash entries)).events = eventsOf env (before ++ [e]) := by
  constructor
  · intro pairs hpairs
    have htrace := traceIn_hash (traceEntries_of_ok hpairs []) soft
    have hkeys : Dict.keys (pairs.map fun p => (p.1.text, p.2)) = pairs.map fun p => p.1.text := by
      rw [Dict.keys, List.map_map]
      rfl
    refine ⟨Dict.ofList (pairs.map fun p => (p.1.text, p.2)), ?_, congrArg Traced.events htrace,
      Dict.nodup_keys_ofList _, ?_, fun key value => ?_⟩
    · rw [← outcome_traceIn, htrace]
      rfl
    · rw [Dict.keys_ofList, hkeys]
    · rw [Dict.get?_ofList_eq_some_iff]
      constructor
      · rintro ⟨before, after, heq, hlast⟩
        obtain ⟨before, rest, rfl, rfl, hrest⟩ := List.map_eq_append_iff.mp heq
        obtain ⟨⟨k, v⟩, after, rfl, hpair, rfl⟩ := List.map_eq_cons_iff.mp hrest
        obtain ⟨rfl, rfl⟩ := Prod.mk.inj hpair
        refine ⟨before, k, after, rfl, rfl, fun p hp hsame => hlast ?_⟩
        exact List.mem_map.mpr ⟨_, List.mem_map_of_mem hp, hsame⟩
      · rintro ⟨before, k, after, rfl, rfl, hlast⟩
        refine ⟨before.map fun p => (p.1.text, p.2), after.map fun p => (p.1.text, p.2), by simp, ?_⟩
        rw [Dict.keys, List.map_map, List.mem_map]
        rintro ⟨p, hp, hsame⟩
        exact hlast p hp hsame
  · intro before e after error hparts hbefore he
    have htrace := traceIn_hash (traceEntries_of_error hparts hbefore he []) soft
    refine ⟨?_, congrArg Traced.events htrace⟩
    rw [← outcome_traceIn, htrace]
    rfl

/-- The keys `1`, `a` and `"1"`; then `nothing.b` as the second key. -/
theorem evalIn_hash_repeated :
    let env := echoing [("a", .int 7)]
    let call (n : Int64) : Expr := .call "f" [.literal (.int n)]
    let missing : Expr := .access .property false (.name "nothing") (.const (.string "b") true) []
    let repeated :=
      [(.literal (.int 1), call 1), (.name "a", .literal .null), (.literal (.string "1"), call 2)]
    let failing := [(.literal (.int 1), call 1), (missing, call 2)]
    (∃ fields : Dict Value,
      evalIn env false (.hash repeated) =
        ⟨[⟨"f", [.int 1]⟩, ⟨"f", [.int 2]⟩], .ok (.object fields)⟩ ∧
      fields.keys = ["1", "7"] ∧ fields.get? "1" = some (.array [.int 2])) ∧
    evalIn env false (.hash failing) =
      ⟨[⟨"f", [.int 1]⟩], .error (.propertyOnNonObject "b" .null)⟩ := by
  intro env call missing repeated failing
  have hcall (n : Int64) : (evalIn env false (call n)).result = .ok (.array [.int n]) := rfl
  constructor
  · have hpairs : List.Forall₂ (Yields env) repeated
        [(.int 1, .array [.int 1]), (.int 7, .null), (.string "1", .array [.int 2])] :=
      .cons ⟨rfl, hcall 1⟩ (.cons ⟨rfl, rfl⟩ (.cons ⟨rfl, hcall 2⟩ .nil))
    obtain ⟨fields, heval, -, -, hkeys, hget⟩ := (evalIn_hash env false repeated).1 _ hpairs
    refine ⟨fields, heval, hkeys.trans (by decide), (hget "1" _).mpr ?_⟩
    exact ⟨[(.int 1, .array [.int 1]), (.int 7, .null)], .string "1", [], rfl, rfl, nofun⟩
  · have hbefore : ∀ d ∈ [.literal (.int 1), call 1], ∃ v, (evalIn env false d).result = .ok v := by
      intro d hd
      fin_cases hd
      · exact ⟨_, rfl⟩
      · exact ⟨_, hcall 1⟩
    exact ((evalIn_hash env false failing).2 _ missing [call 2] _ rfl hbefore rfl).1

end Evaluation
end Formula
