import Formula.Proofs.Language.Transparency

/-! When functions can be registered: until a text is parsed, checked, compiled or evaluated, and
never after that. -/

namespace Formula

/-- Whether there is still something to parse. -/
def Input.isText : Input → Bool
  | .text _ => true
  | .parsed _ => false

namespace Request

/-- Whether a request has the language read a text. -/
def readsText : Request → Bool
  | parse input _ _ | evaluate _ input _ | compile input _ | lint input _ _ => input.isText
  | register _ | registerAll _ => false

/-- The functions that a request asks to register. -/
def registered : Request → List Function
  | register f => [f]
  | registerAll fs => fs
  | parse _ _ _ | evaluate _ _ _ | compile _ _ | lint _ _ _ => []

end Request

/-- A request, or a resolver for the functions that look up paths. -/
inductive Operation
  | request (r : Request)
  | resolve (resolver : Resolver)

namespace Operation

variable {σ : Type} [Cache σ]

/-- What a host gets, and the language that is left. Of a refused resolver that is the language as it
was. -/
def perform : Operation → Language σ → Except LanguageError Answer × Language σ
  | request r, l => r.perform.run l
  | resolve resolver, l => match l.withResolver resolver with
    | .ok l' => (.ok .done, l')
    | .error e => (.error (.frozen e), l)

def readsText : Operation → Bool
  | request r => r.readsText
  | resolve _ => false

/-- Whether an operation asks for a change of the functions. -/
def registers : Operation → Bool
  | request r => !r.registered.isEmpty
  | resolve _ => true

/-- What an operation makes of functions that are not frozen. -/
def effect : Operation → Registry → Registry
  | request r, functions => r.registered.foldl Registry.put functions
  | resolve resolver, functions => functions.setResolver resolver

end Operation

namespace Registry

theorem freeze_of_isFrozen {functions : Registry} (h : functions.isFrozen = true) :
    functions.freeze = functions := by
  obtain ⟨fs, frozen⟩ := functions
  obtain rfl : frozen = true := h
  rfl

theorem isFrozen_foldl_put (fs : List Function) (functions : Registry) :
    (fs.foldl put functions).isFrozen = functions.isFrozen := by
  induction fs generalizing functions with
  | nil => rfl
  | cons f fs ih => exact ih (functions.put f)

end Registry

namespace Language

variable {σ α β : Type}

/-- A session makes `effect` of the functions, whether it succeeds or fails. -/
def Leaves (f : Session σ α) (effect : Registry → Registry) : Prop :=
  ∀ l, (f.run l).2.functions = effect l.functions

variable {f : Session σ α} {g : α → Session σ β} {effect : Registry → Registry}

theorem leaves_pure (a : α) : Leaves (pure a : Session σ α) id := fun _ => rfl

theorem leaves_get : Leaves (get : Session σ (Language σ)) id := fun _ => rfl

theorem leaves_freeze : Leaves (freeze (σ := σ)) Registry.freeze := fun _ => rfl

theorem Leaves.bind (hf : Leaves f effect) (hg : ∀ a, Leaves (g a) id) :
    Leaves (f >>= g) effect := by
  intro l
  rw [bind_run, ← hf l]
  rcases f.run l with ⟨a | e, l'⟩
  · rfl
  · exact hg _ l'

theorem leaves_parseAnew (source : String) (declared : Option (List Variable))
    (leniency : Leniency) : Leaves (parseAnew (σ := σ) source declared leniency) id := by
  intro l
  rw [parseAnew_run]
  cases parseText (Scope.ofVariables l.functions.names declared leniency) source <;> rfl

theorem leaves_stamp (source : String) (tree : Expr) : Leaves (stamp (σ := σ) source tree) id :=
  fun _ => rfl

/-- What reading an input makes of the functions. -/
def frozenBy (input : Input) : Registry → Registry :=
  if input.isText then Registry.freeze else id

theorem leaves_lint (input : Input) (declared : Option (List Variable)) (leniency : Leniency) :
    Leaves (lint (σ := σ) input declared leniency) (frozenBy input) := by
  cases input with
  | parsed p => exact leaves_pure ()
  | text source =>
    exact leaves_freeze.bind fun _ => (leaves_parseAnew source declared leniency).bind leaves_pure

/-- Of frozen functions not even the first registration succeeds, of others none fails. -/
theorem registerAll_run (fs : List Function) (l : Language σ) : (registerAll fs).run l =
    if fs = [] then (.ok (), l)
    else if l.functions.isFrozen then (.error (.frozen {}), l)
    else (.ok (), { l with functions := fs.foldl Registry.put l.functions }) := by
  induction fs generalizing l with
  | nil => rfl
  | cons f fs ih =>
    rw [registerAll, bind_run, register_run, if_neg (List.cons_ne_nil f fs)]
    by_cases hfrozen : l.functions.isFrozen = true
    · rw [if_pos hfrozen, if_pos hfrozen]
    · have hput : ¬(l.functions.put f).isFrozen = true := hfrozen
      rw [if_neg hfrozen, if_neg hfrozen]
      dsimp only
      rw [ih, if_neg hput]
      split
      · rename_i hnil
        rw [hnil]
        rfl
      · rfl

section

variable [Cache σ]

theorem leaves_lookup (key : String) : Leaves (lookup (σ := σ) key) id := by
  intro l
  have hget : (get : Session σ (Language σ)).run l = (.ok l, l) := rfl
  rw [lookup, bind_run, hget]
  dsimp only
  rcases Cache.lookup l.cache key with ⟨item | e, cache⟩ <;> rfl

theorem leaves_store (item : CacheItem) : Leaves (store (σ := σ) item) id := fun _ => rfl

theorem leaves_parse (input : Input) (declared : List Variable) (leniency : Leniency) :
    Leaves (parse (σ := σ) input declared leniency) (frozenBy input) := by
  cases input with
  | parsed p => exact leaves_pure p
  | text source =>
    refine leaves_freeze.bind fun _ => (leaves_lookup _).bind fun item => ?_
    cases item.value with
    | some p => exact leaves_pure p
    | none =>
      refine (leaves_parseAnew source _ leniency).bind fun tree => ?_
      refine (leaves_stamp source tree).bind fun p => ?_
      exact (leaves_store _).bind fun _ => leaves_pure p

theorem leaves_request (r : Request) : Leaves (r.perform (σ := σ)) fun functions =>
    if r.readsText then functions.freeze
    else if functions.isFrozen then functions
    else r.registered.foldl Registry.put functions := by
  -- A request that does not register leaves functions that are not frozen as they are.
  have hread {α : Type} {f : Session σ α} {input : Input} (h : Leaves f (frozenBy input)) :
      Leaves f fun functions =>
        if input.isText then functions.freeze
        else if functions.isFrozen then functions else functions := by
    intro l
    rw [h l, frozenBy]
    cases input.isText <;> simp
  cases r with
  | parse input declared leniency =>
    exact hread ((leaves_parse input declared leniency).bind fun p => leaves_pure _)
  | evaluate host input context =>
    refine hread (Leaves.bind ((leaves_parse input _ {}).bind fun p => ?_) fun v => leaves_pure _)
    exact leaves_get.bind fun l => leaves_pure _
  | compile input declared =>
    refine hread (Leaves.bind ((leaves_parse input declared {}).bind fun p => ?_) fun v => leaves_pure _)
    exact leaves_get.bind fun l => leaves_pure _
  | lint input declared leniency =>
    exact hread ((leaves_lint input declared leniency).bind fun _ => leaves_pure _)
  | register f =>
    refine Leaves.bind (fun l => ?_) fun _ => leaves_pure _
    rw [register_run]
    by_cases hfrozen : l.functions.isFrozen = true <;> simp [hfrozen, Request.readsText, Request.registered]
  | registerAll fs =>
    refine Leaves.bind (fun l => ?_) fun _ => leaves_pure _
    rw [registerAll_run]
    by_cases hfs : fs = []
    · simp [hfs, Request.readsText, Request.registered]
    · by_cases hfrozen : l.functions.isFrozen = true <;>
        simp [hfs, hfrozen, Request.readsText, Request.registered]

/-- What an operation makes of the functions. -/
theorem functions_perform (op : Operation) (l : Language σ) : (op.perform l).2.functions =
    if op.readsText then l.functions.freeze
    else if l.functions.isFrozen then l.functions
    else op.effect l.functions := by
  cases op with
  | request r => exact leaves_request r l
  | resolve resolver =>
    rw [Operation.perform, withResolver]
    by_cases hfrozen : l.functions.isFrozen = true <;>
      simp [hfrozen, Operation.readsText, Operation.effect]

/-- A registration fails and changes nothing if the functions are frozen, and succeeds otherwise. -/
theorem perform_of_registers {op : Operation} (h : op.registers = true) (l : Language σ) :
    op.perform l =
      if l.functions.isFrozen then (.error (.frozen {}), l)
      else (.ok .done, { l with functions := op.effect l.functions }) := by
  cases op with
  | request r =>
    cases r with
    | register f =>
      rw [Operation.perform, Request.perform, bind_run, register_run]
      by_cases hfrozen : l.functions.isFrozen = true
      · simp [hfrozen]
      · simp only [hfrozen]
        rfl
    | registerAll fs =>
      have hfs : fs ≠ [] := by
        rintro rfl
        cases h
      rw [Operation.perform, Request.perform, bind_run, registerAll_run, if_neg hfs]
      by_cases hfrozen : l.functions.isFrozen = true
      · simp [hfrozen]
      · simp only [hfrozen]
        rfl
    | parse | evaluate | compile | lint => cases h
  | resolve resolver =>
    rw [Operation.perform, withResolver]
    by_cases hfrozen : l.functions.isFrozen = true <;> simp [hfrozen, Operation.effect]

theorem isFrozen_perform (op : Operation) (l : Language σ) :
    (op.perform l).2.functions.isFrozen = (l.functions.isFrozen || op.readsText) := by
  rw [functions_perform]
  cases hreads : op.readsText with
  | true => simp [Registry.freeze]
  | false =>
    by_cases hfrozen : l.functions.isFrozen = true
    · simp [hfrozen]
    · have heffect : (op.effect l.functions).isFrozen = l.functions.isFrozen := by
        cases op with
        | request r => exact Registry.isFrozen_foldl_put _ _
        | resolve resolver => rfl
      simp [hfrozen, heffect]

/-- What is left of a language after operations, whether they succeed or fail. -/
def after : List Operation → Language σ → Language σ
  | [], l => l
  | op :: ops, l => after ops (op.perform l).2

theorem isFrozen_after (ops : List Operation) (l : Language σ) :
    (after ops l).functions.isFrozen = (l.functions.isFrozen || ops.any Operation.readsText) := by
  induction ops generalizing l with
  | nil => simp [after]
  | cons op ops ih => rw [after, ih, isFrozen_perform, List.any_cons, Bool.or_assoc]

theorem functions_after_of_isFrozen (ops : List Operation) {l : Language σ}
    (h : l.functions.isFrozen = true) : (after ops l).functions = l.functions := by
  induction ops generalizing l with
  | nil => rfl
  | cons op ops ih =>
    have hsame : (op.perform l).2.functions = l.functions := by
      rw [functions_perform, if_pos h, Registry.freeze_of_isFrozen h, ite_self]
    rw [after, ih (hsame ▸ h), hsame]

/-- Once a text was read, with or without success, a registration fails, leaves the language as it
was, and nothing changes the functions any more. Before, registrations succeed. -/
theorem perform_after_of_registers {op : Operation} (h : op.registers = true)
    (before : List Operation) (l : Language σ) :
    ((l.functions.isFrozen || before.any Operation.readsText) = true →
      op.perform (after before l) = (.error (.frozen {}), after before l) ∧
      ∀ later, (after later (after before l)).functions = (after before l).functions) ∧
    ((l.functions.isFrozen || before.any Operation.readsText) = false →
      op.perform (after before l) =
        (.ok .done, { after before l with functions := op.effect (after before l).functions })) := by
  rw [← isFrozen_after, perform_of_registers h]
  refine ⟨fun hfrozen => ⟨if_pos hfrozen, fun later => ?_⟩, fun hfrozen => ?_⟩
  · exact functions_after_of_isFrozen later hfrozen
  · exact if_neg (Bool.eq_false_iff.mp hfrozen)

/-- A check of a text that is no expression. -/
def failedLint : Operation := .request (.lint (.text "(") none {})

def registersMax : Operation := .request (.registerAll [Builtin.max])

theorem perform_after_failedLint :
    registersMax.registers = true ∧
    ((withCache EmptyCache.mk).functions.isFrozen || [failedLint].any Operation.readsText) = true ∧
    registersMax.perform (after [failedLint] (withCache EmptyCache.mk)) =
      (.error (.frozen {}), after [failedLint] (withCache EmptyCache.mk)) ∧
    (∀ later, (after later (after [failedLint] (withCache EmptyCache.mk))).functions =
      (after [failedLint] (withCache EmptyCache.mk)).functions) ∧
    ((withCache EmptyCache.mk).functions.isFrozen || [].any Operation.readsText) = false ∧
    registersMax.perform (after [] (withCache EmptyCache.mk)) =
      (.ok .done, { after [] (withCache EmptyCache.mk) with
        functions := registersMax.effect (after [] (withCache EmptyCache.mk)).functions }) := by
  obtain ⟨hrefused, hkept⟩ :=
    (perform_after_of_registers (show registersMax.registers = true from rfl) [failedLint]
      (withCache EmptyCache.mk)).1 rfl
  exact ⟨rfl, rfl, hrefused, hkept, rfl, (perform_after_of_registers rfl [] _).2 rfl⟩

def parsedOne : Input := .parsed ⟨"1", .literal (.int 1), 0⟩

/-- Uses of what was parsed before. -/
def usesOfParsed : List Operation :=
  [.request (.compile parsedOne []), .request (.evaluate (fun _ _ => .ok .null) parsedOne [])]

/-- What was parsed before may be compiled and evaluated without a freeze. -/
theorem perform_after_parsed :
    (after usesOfParsed (withCache EmptyCache.mk)).functions.isFrozen = false ∧
    (registersMax.perform (after usesOfParsed (withCache EmptyCache.mk))).1 = .ok .done :=
  ⟨rfl, rfl⟩

end

end Language
end Formula
