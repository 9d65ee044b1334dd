import Mathlib
import Formula.Proofs.Dict
import Formula.Proofs.Language.Freezing

/-! Which function stands under a name after any operations. A host's own function stays until the host
registers another one, except where a resolver is set: that puts the functions that look up paths back. -/

namespace Formula

/-- A host registers a function, or sets a resolver. -/
inductive Change
  | register (f : Function)
  | resolve (resolver : Resolver)

namespace Change

/-- What is put in. -/
def functions : Change → List Function
  | register f => [f]
  | resolve resolver => [Builtin.constant resolver, Builtin.enum resolver]

/-- The name under which a host registers. -/
def registered? : Change → Option String
  | register f => some f.name
  | resolve _ => none

end Change

/-- What an operation changes if it succeeds. -/
def Operation.changes : Operation → List Change
  | request r => r.registered.map .register
  | resolve resolver => [.resolve resolver]

namespace Registry

def entries (cs : List Change) : List (String × Function) :=
  (cs.flatMap Change.functions).map fun f => (f.name, f)

theorem entries_append (cs cs' : List Change) : entries (cs ++ cs') = entries cs ++ entries cs' := by
  rw [entries, List.flatMap_append, List.map_append]
  rfl

theorem entries_cons (c : Change) (cs : List Change) : entries (c :: cs) = entries [c] ++ entries cs :=
  entries_append [c] cs

theorem entries_register (fs : List Function) :
    entries (fs.map .register) = fs.map fun f => (f.name, f) := by
  induction fs with
  | nil => rfl
  | cons f fs ih =>
    rw [List.map_cons, entries_cons, ih]
    rfl

theorem mem_keys_entries {name : String} {cs : List Change} : name ∈ Dict.keys (entries cs) ↔
    (∃ f, Change.register f ∈ cs ∧ f.name = name) ∨
      (name ∈ ["constant", "enum"] ∧ ∃ resolver, Change.resolve resolver ∈ cs) := by
  rw [Dict.keys, entries, List.map_map]
  simp only [List.mem_map, List.mem_flatMap, Function.comp_apply]
  constructor
  · rintro ⟨f, ⟨c, hc, hf⟩, rfl⟩
    cases c with
    | register g =>
      obtain rfl : f = g := List.mem_singleton.mp hf
      exact .inl ⟨f, hc, rfl⟩
    | resolve resolver =>
      have hname : f.name ∈ [Builtin.constant resolver, Builtin.enum resolver].map Function.name :=
        List.mem_map_of_mem hf
      exact .inr ⟨hname, resolver, hc⟩
  · rintro (⟨f, hf, rfl⟩ | ⟨hname, resolver, hresolver⟩)
    · exact ⟨f, ⟨_, hf, List.mem_singleton_self f⟩, rfl⟩
    · have hmem : name ∈ [Builtin.constant resolver, Builtin.enum resolver].map Function.name := hname
      obtain ⟨f, hf, rfl⟩ := List.mem_map.mp hmem
      exact ⟨f, ⟨_, hresolver, hf⟩, rfl⟩

theorem functions_foldl_put (fs : List Function) (functions : Registry) :
    (fs.foldl put functions).functions =
      functions.functions.putAll (fs.map fun f => (f.name, f)) := by
  induction fs generalizing functions with
  | nil => rfl
  | cons f fs ih => exact ih (functions.put f)

/-- The names of a language of its own come first, and no resolver adds a name. -/
theorem filter_keys_entries (cs : List Change) :
    (Dict.keys (entries cs)).filter (· ∉ (withBuiltins none).names) =
      (cs.filterMap Change.registered?).filter (· ∉ (withBuiltins none).names) := by
  induction cs with
  | nil => rfl
  | cons c cs ih =>
    have hkeys : Dict.keys (entries (c :: cs)) = Dict.keys (entries [c]) ++ Dict.keys (entries cs) := by
      rw [entries_cons, Dict.keys, List.map_append]
      rfl
    rw [hkeys, List.filter_append, ih]
    cases c with
    | register f =>
      rw [← List.filter_append]
      rfl
    | resolve resolver => rfl

end Registry

namespace Language

variable {σ : Type} [Cache σ]

/-- What an operation changes, which is nothing if it fails. -/
def changesOf (op : Operation) (l : Language σ) : List Change :=
  match (op.perform l).1 with
  | .ok _ => op.changes
  | .error _ => []

/-- The changes of operations that are performed one after another. -/
def accepted : List Operation → Language σ → List Change
  | [], _ => []
  | op :: ops, l => changesOf op l ++ accepted ops (op.perform l).2

theorem changes_of_registers {op : Operation} (h : op.registers = false) : op.changes = [] := by
  cases op with
  | request r =>
    have hnone : r.registered = [] := by
      simpa only [Operation.registers, Bool.not_eq_false', List.isEmpty_iff] using h
    rw [Operation.changes, hnone]
    rfl
  | resolve resolver => cases h

theorem functions_effect (op : Operation) (functions : Registry) :
    (op.effect functions).functions = functions.functions.putAll (Registry.entries op.changes) := by
  cases op with
  | request r =>
    rw [Operation.effect, Operation.changes, Registry.entries_register]
    exact Registry.functions_foldl_put r.registered functions
  | resolve resolver => rfl

theorem functions_perform_eq (op : Operation) (l : Language σ) : (op.perform l).2.functions.functions =
    l.functions.functions.putAll (Registry.entries (changesOf op l)) := by
  cases hregisters : op.registers with
  | true =>
    rw [changesOf, perform_of_registers hregisters]
    by_cases hfrozen : l.functions.isFrozen = true
    · rw [if_pos hfrozen]
      rfl
    · rw [if_neg hfrozen]
      exact functions_effect op l.functions
  | false =>
    -- Whether it succeeds or fails, there is nothing to put in.
    have hnone := changes_of_registers hregisters
    have hsame : (op.perform l).2.functions.functions = l.functions.functions := by
      rw [functions_perform]
      split
      · rfl
      split
      · rfl
      · rw [functions_effect, hnone]
        rfl
    rw [hsame, changesOf, hnone]
    cases (op.perform l).1 <;> rfl

theorem functions_after (ops : List Operation) (l : Language σ) :
    (after ops l).functions.functions =
      l.functions.functions.putAll (Registry.entries (accepted ops l)) := by
  induction ops generalizing l with
  | nil => rfl
  | cons op ops ih =>
    rw [after, ih, functions_perform_eq, ← Dict.putAll_append, ← Registry.entries_append]
    rfl

/-- All changes since a language was set up with the functions of providers. -/
def history (cache : σ) (providers : List (List Function)) (ops : List Operation) : List Change :=
  providers.flatten.map .register ++ accepted ops (withProviders cache providers)

variable {cache : σ} {providers : List (List Function)} {ops : List Operation}

theorem functions_eq_history : (after ops (withProviders cache providers)).functions.functions =
    (Registry.withBuiltins none).functions.putAll (Registry.entries (history cache providers ops)) := by
  have hproviders : (withProviders cache providers).functions.functions =
      (Registry.withBuiltins none).functions.putAll
        (Registry.entries (providers.flatten.map .register)) := by
    rw [Registry.entries_register]
    exact Registry.functions_foldl_put providers.flatten (.withBuiltins none)
  rw [functions_after, hproviders, ← Dict.putAll_append, ← Registry.entries_append]
  rfl

/-- The last change that puts a function under its name decides. -/
theorem get?_of_last {entries entries' : List (String × Function)} {f : Function}
    (h : Registry.entries (history cache providers ops) = entries ++ (f.name, f) :: entries')
    (hlast : f.name ∉ Dict.keys entries') :
    (after ops (withProviders cache providers)).functions.get? f.name = some f := by
  rw [Registry.get?, functions_eq_history, h]
  exact Dict.get?_putAll_of_last hlast

theorem get?_of_resolve {before later : List Change} {resolver : Resolver}
    (h : history cache providers ops = before ++ .resolve resolver :: later) {f : Function}
    (hf : f ∈ [Builtin.constant resolver, Builtin.enum resolver])
    (hlast : f.name ∉ Dict.keys (Registry.entries later)) :
    (after ops (withProviders cache providers)).functions.get? f.name = some f := by
  have hentries : Registry.entries (history cache providers ops) =
      Registry.entries before ++ [("constant", Builtin.constant resolver),
        ("enum", Builtin.enum resolver)] ++ Registry.entries later := by
    rw [h, Registry.entries_append, Registry.entries_cons, List.append_assoc]
    rfl
  rcases List.mem_cons.mp hf with rfl | hf
  · have hconstant : Registry.entries (history cache providers ops) =
        Registry.entries before ++ ("constant", Builtin.constant resolver) ::
          ("enum", Builtin.enum resolver) :: Registry.entries later := by
      rw [hentries, List.append_assoc]
      rfl
    have hother : "constant" ≠ "enum" := by decide
    exact get?_of_last hconstant (List.not_mem_cons_of_ne_of_not_mem hother hlast)
  · obtain rfl := List.mem_singleton.mp hf
    have henum : Registry.entries (history cache providers ops) =
        (Registry.entries before ++ [("constant", Builtin.constant resolver)]) ++
          ("enum", Builtin.enum resolver) :: Registry.entries later := by
      rw [hentries, List.append_assoc, List.append_assoc]
      rfl
    exact get?_of_last henum hlast

theorem names_after : (after ops (withProviders cache providers)).functions.names.Nodup ∧
    (after ops (withProviders cache providers)).functions.names =
      (Registry.withBuiltins none).names ++
        (((history cache providers ops).filterMap Change.registered?).filter
          (· ∉ (Registry.withBuiltins none).names)).eraseDups := by
  have hnodup : (Registry.withBuiltins none).functions.keys.Nodup := by decide
  rw [Registry.names, functions_eq_history]
  refine ⟨Dict.nodup_keys_putAll hnodup _, ?_⟩
  rw [Dict.keys_putAll, ← Registry.filter_keys_entries]
  rfl

/-- Whatever operations succeed or fail, the function that a host registered last under a name stands
under it, unless it is one of the two names that a resolver set later takes back. Under a name that the
host has not registered stands what the language came with, with the resolver that was set last. The
names of the language come first, then the others as they were first registered. -/
theorem get?_after (cache : σ) (providers : List (List Function)) (ops : List Operation) :
    let functions := (after ops (withProviders cache providers)).functions
    let changes := history cache providers ops
    (∀ before f later, changes = before ++ .register f :: later →
      (∀ g, .register g ∈ later → g.name ≠ f.name) →
      (f.name ∈ ["constant", "enum"] → ∀ resolver, .resolve resolver ∉ later) →
      functions.get? f.name = some f) ∧
    (∀ before (resolver : Resolver) later, changes = before ++ .resolve resolver :: later →
      (∀ resolver', .resolve resolver' ∉ later) →
      ∀ f ∈ [Builtin.constant resolver, Builtin.enum resolver],
        (∀ g, .register g ∈ later → g.name ≠ f.name) → functions.get? f.name = some f) ∧
    (∀ name, (∀ g, .register g ∈ changes → g.name ≠ name) →
      (name ∈ ["constant", "enum"] → ∀ resolver, .resolve resolver ∉ changes) →
      functions.get? name = (Registry.withBuiltins none).get? name) ∧
    functions.names.Nodup ∧
    functions.names = ["min", "max", "constant", "enum"] ++
      ((changes.filterMap Change.registered?).filter
        (· ∉ ["min", "max", "constant", "enum"])).eraseDups := by
  have hkeys {name : String} {cs : List Change} (hregister : ∀ g, .register g ∈ cs → g.name ≠ name)
      (hresolve : name ∈ ["constant", "enum"] → ∀ resolver, .resolve resolver ∉ cs) :
      name ∉ Dict.keys (Registry.entries cs) := by
    rw [Registry.mem_keys_entries]
    rintro (⟨g, hg, hname⟩ | ⟨hname, resolver, hresolver⟩)
    · exact hregister g hg hname
    · exact hresolve hname resolver hresolver
  refine ⟨fun before f later h hregister hresolve => ?_,
    fun before resolver later h hresolve f hf hregister => ?_, fun name hregister hresolve => ?_,
    names_after⟩
  · have hentries : Registry.entries (history cache providers ops) =
        Registry.entries before ++ (f.name, f) :: Registry.entries later := by
      rw [h, Registry.entries_append, Registry.entries_cons]
      rfl
    exact get?_of_last hentries (hkeys hregister hresolve)
  · exact get?_of_resolve h hf (hkeys hregister fun _ => hresolve)
  · rw [Registry.get?, functions_eq_history]
    exact Dict.get?_putAll_of_notMem _ (hkeys hregister hresolve)

/-- Of two functions of one name the later one stands, a resolver spares what is registered after it, and
what only the language has is kept. -/
theorem get?_after_sample :
    let hosted (name target : String) : Function := ⟨name, Builtin.callScript target, .hosted target⟩
    let bindings : Resolver := .ofPaths [("a", .int 1)]
    let operations : List Operation :=
      [.request (.register (hosted "min" "least")), .resolve bindings, .request (.compile parsedOne []),
        .request (.registerAll [hosted "constant" "own", hosted "up" "upper"])]
    let functions := (after operations (withProviders EmptyCache.mk [[], [hosted "up" "up"]])).functions
    functions.get? "up" = some (hosted "up" "upper") ∧
    functions.get? "constant" = some (hosted "constant" "own") ∧
    functions.get? "enum" = some (Builtin.enum bindings) ∧
    functions.get? "max" = some Builtin.max ∧
    functions.names = ["min", "max", "constant", "enum", "up"] := by
  intro hosted bindings operations functions
  have hhistory : history EmptyCache.mk [[], [hosted "up" "up"]] operations =
      [.register (hosted "up" "up"), .register (hosted "min" "least"), .resolve bindings,
        .register (hosted "constant" "own"), .register (hosted "up" "upper")] := rfl
  obtain ⟨hregistered, hresolved, hkept, -, hnames⟩ :=
    get?_after EmptyCache.mk [[], [hosted "up" "up"]] operations
  refine ⟨?_, ?_, ?_, ?_, ?_⟩
  · refine hregistered [.register (hosted "up" "up"), .register (hosted "min" "least"),
      .resolve bindings, .register (hosted "constant" "own")] (hosted "up" "upper") [] hhistory ?_ ?_
    · exact fun g hg => absurd hg List.not_mem_nil
    · exact fun _ _ => List.not_mem_nil
  · refine hregistered [.register (hosted "up" "up"), .register (hosted "min" "least"),
      .resolve bindings] (hosted "constant" "own") [.register (hosted "up" "upper")] hhistory ?_ ?_
    · simp [hosted]
    · simp
  · refine hresolved [.register (hosted "up" "up"), .register (hosted "min" "least")] bindings
      [.register (hosted "constant" "own"), .register (hosted "up" "upper")] hhistory ?_
      (Builtin.enum bindings) (by simp) ?_
    · simp
    · simp [hosted, Builtin.enum]
  · refine hkept "max" ?_ ?_
    · rw [hhistory]
      simp [hosted]
    · simp
  · rw [hnames, hhistory]
    decide

/-- A resolver that is set later takes the name from the host's own function. -/
theorem get?_constant_of_resolve :
    let own : Function := ⟨"constant", fun _ => "own", .hosted "own"⟩
    let bindings : Resolver := fun _ => none
    let operations : List Operation := [.request (.register own), .resolve bindings]
    let functions := (after operations (withCache EmptyCache.mk)).functions
    accepted operations (withCache EmptyCache.mk) = [.register own, .resolve bindings] ∧
    functions.get? "constant" = some (Builtin.constant bindings) ∧
    functions.get? "constant" ≠ some own := by
  intro own bindings operations functions
  have hfound : functions.get? "constant" = some (Builtin.constant bindings) := rfl
  refine ⟨rfl, hfound, fun hown => ?_⟩
  have hsame : Builtin.constant bindings = own := Option.some.inj (hfound.symm.trans hown)
  have hscript : "constant()" = "own" := congrArg (fun f => f.script []) hsame
  exact absurd hscript (by decide)

end Language
end Formula
