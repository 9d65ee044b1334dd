import Formula.Language
import Formula.Proofs.Cache.Key
import Formula.Proofs.Cache.Recall
import Formula.Proofs.Parsing.Declarations

/-! A language answers the same whatever its store remembers: what is found was parsed from the same
text, under variables and functions that lead to the same tree. -/

namespace Formula

/-- The same text, or parsed expressions that agree but for their stamps. -/
inductive Input.Alike : Input → Input → Prop
  | text (source : String) : Alike (.text source) (.text source)
  | parsed {p p' : Parsed} : p.source = p'.source → p.tree = p'.tree →
      Alike (.parsed p) (.parsed p')

/-- What a host asks of a language. -/
inductive Request
  | parse (input : Input) (declared : List Variable) (leniency : Leniency)
  | evaluate (host : Host) (input : Input) (context : Context)
  | compile (input : Input) (declared : List Variable)
  | lint (input : Input) (declared : Option (List Variable)) (leniency : Leniency)
  | register (f : Function)
  | registerAll (fs : List Function)

/-- What it gets, stamps apart. -/
inductive Answer
  | parsed (source : String) (tree : Expr)
  | value (outcome : Outcome Value)
  | script (source : String)
  | done

namespace Request

def perform {σ : Type} [Cache σ] : Request → Session σ Answer
  | parse input declared leniency => do
    let p ← Language.parse input declared leniency
    return .parsed p.source p.tree
  | evaluate host input context => return .value (← Language.evaluate host input context)
  | compile input declared => return .script (← Language.compile input declared)
  | lint input declared leniency => do
    Language.lint input declared leniency
    return .done
  | register f => do
    Language.register f
    return .done
  | registerAll fs => do
    Language.registerAll fs
    return .done

/-- The variables under which a request looks for a parse in the store. -/
def declared : Request → List Variable
  | parse _ declared _ | compile _ declared => declared
  | evaluate _ _ context => context.keys.map .plain
  | lint _ _ _ | register _ | registerAll _ => []

/-- All names are names that an expression may hold, and no spelling stands for two keys. -/
def IsProper (r : Request) : Prop :=
  (∀ v ∈ r.declared, v.IsIdentifier) ∧ Variable.Unambiguous r.declared

/-- The same request, about expressions that agree but for their stamps. -/
inductive Alike : Request → Request → Prop
  | parse {i i'} (declared leniency) : i.Alike i' →
      Alike (.parse i declared leniency) (.parse i' declared leniency)
  | evaluate {i i'} (host context) : i.Alike i' →
      Alike (.evaluate host i context) (.evaluate host i' context)
  | compile {i i'} (declared) : i.Alike i' → Alike (.compile i declared) (.compile i' declared)
  | lint {i i'} (declared leniency) : i.Alike i' →
      Alike (.lint i declared leniency) (.lint i' declared leniency)
  | register (f) : Alike (.register f) (.register f)
  | registerAll (fs) : Alike (.registerAll fs) (.registerAll fs)

end Request

namespace Language

variable {σ τ α α' β β' : Type}

section

variable [Cache σ]

/-- The answers to requests that are made one after another. -/
def answers : List Request → Language σ → List (Except LanguageError Answer)
  | [], _ => []
  | r :: rs, l =>
    let (answer, l) := r.perform.run l
    answer :: answers rs l

theorem answers_cons (r : Request) (rs : List Request) (l : Language σ) :
    answers (r :: rs) l = (r.perform.run l).1 :: answers rs (r.perform.run l).2 := rfl

end

theorem bind_run (f : Session σ α) (g : α → Session σ β) (l : Language σ) :
    (f >>= g).run l = match f.run l with
      | (.ok a, l') => (g a).run l'
      | (.error e, l') => (.error e, l') := by
  change ((f.run >>= ExceptT.bindCont g : StateM (Language σ) _)) l = _
  change (match f.run l with | (a, l') => ExceptT.bindCont g a l') = _
  rcases f.run l with ⟨e | a, l'⟩ <;> rfl

theorem parseAnew_run (source : String) (declared : Option (List Variable)) (leniency : Leniency)
    (l : Language σ) : (parseAnew source declared leniency).run l =
      match parseText (Scope.ofVariables l.functions.names declared leniency) source with
      | .ok tree => (.ok tree, l)
      | .error e => (.error (.malformed e), l) := by
  have hget : (get : Session σ (Language σ)).run l = (.ok l, l) := rfl
  rw [parseAnew, bind_run, hget]
  dsimp only
  cases parseText (Scope.ofVariables l.functions.names declared leniency) source <;> rfl

theorem register_run (f : Function) (l : Language σ) : (register f).run l =
    if l.functions.isFrozen then (.error (.frozen {}), l)
    else (.ok (), { l with functions := l.functions.put f }) := by
  have hget : (get : Session σ (Language σ)).run l = (.ok l, l) := rfl
  rw [register, bind_run, hget]
  dsimp only
  by_cases hfrozen : l.functions.isFrozen = true
  · have hregister : l.functions.register f = .error {} := if_pos hfrozen
    rw [if_pos hfrozen, hregister]
    rfl
  · have hregister : l.functions.register f = .ok (l.functions.put f) := if_neg hfrozen
    rw [if_neg hfrozen, hregister]
    rfl

/-- How the ends of two sessions compare. -/
inductive Results (R : α → α' → Prop) :
    Except LanguageError α → Except LanguageError α' → Prop
  | ok {a a'} : R a a' → Results R (.ok a) (.ok a')
  | error (e) : Results R (.error e) (.error e)

theorem Results.eq {r r' : Except LanguageError α} (h : Results Eq r r') : r = r' := by
  cases h with
  | ok h => rw [h]
  | error e => rfl

section

variable [Cache σ] [Cache τ] (start : σ) (start' : τ)

/-- A parse that a later request may find: its text has this tree under any variables that share
the key, as no function can be registered any more. -/
def IsSound (functions : Registry) (key : String) (p : Parsed) : Prop :=
  functions.isFrozen = true ∧ ∃ declared leniency, key = cacheKey p.source declared leniency ∧
    (∀ v ∈ declared, v.IsIdentifier) ∧ Variable.Unambiguous declared ∧
    parseText (Scope.ofVariables functions.names (some declared) leniency) p.source = .ok p.tree

/-- Two languages with the same functions; what the first one has stored is sound. -/
structure Agree (l : Language σ) (l' : Language τ) : Prop where
  functions : l.functions = l'.functions
  stored : ∃ saved, Cache.Reaches start saved l.cache ∧
    ∀ entry ∈ saved, IsSound l.functions entry.1 entry.2
  reached : ∃ saved, Cache.Reaches start' saved l'.cache

/-- From languages that agree, sessions that come to the same end and leave languages that agree. -/
def Corresponds (R : α → α' → Prop) (f : Session σ α) (g : Session τ α') : Prop :=
  ∀ l l', Agree start start' l l' →
    Results R (f.run l).1 (g.run l').1 ∧ Agree start start' (f.run l).2 (g.run l').2

variable {start start'} {R : α → α' → Prop} {S : β → β' → Prop}

theorem corresponds_pure {a : α} {a' : α'} (h : R a a') :
    Corresponds start start' R (pure a) (pure a') :=
  fun _ _ hl => ⟨.ok h, hl⟩

theorem Corresponds.bind {f : Session σ α} {g : Session τ α'} {f' : α → Session σ β}
    {g' : α' → Session τ β'} (h : Corresponds start start' R f g)
    (h' : ∀ a a', R a a' → Corresponds start start' S (f' a) (g' a')) :
    Corresponds start start' S (f >>= f') (g >>= g') := by
  intro l l' hl
  rw [bind_run, bind_run]
  obtain ⟨hresults, hagree⟩ := h l l' hl
  -- Both ends become variables, so that the cases below see the results alone.
  generalize f.run l = end₁ at hresults hagree ⊢
  generalize g.run l' = end₂ at hresults hagree ⊢
  obtain ⟨r, m⟩ := end₁
  obtain ⟨r', m'⟩ := end₂
  cases hresults with
  | ok hab => exact h' _ _ hab m m' hagree
  | error e => exact ⟨.error e, hagree⟩

theorem IsSound.freeze {functions : Registry} {key : String} {p : Parsed}
    (h : IsSound functions key p) : IsSound functions.freeze key p := ⟨rfl, h.2⟩

theorem corresponds_freeze : Corresponds start start' Eq (freeze (σ := σ)) (freeze (σ := τ)) := by
  rintro l l' ⟨hfunctions, ⟨saved, hreaches, hsound⟩, hreached⟩
  refine ⟨.ok rfl, congrArg Registry.freeze hfunctions, ⟨saved, hreaches, ?_⟩, hreached⟩
  exact fun entry hentry => (hsound entry hentry).freeze

theorem corresponds_get :
    Corresponds start start' (fun l l' => l.functions = l'.functions)
      (get : Session σ (Language σ)) (get : Session τ (Language τ)) :=
  fun _ _ hl => ⟨.ok hl.functions, hl⟩

theorem corresponds_register (f : Function) :
    Corresponds start start' Eq (register (σ := σ) f) (register (σ := τ) f) := by
  rintro l l' ⟨hfunctions, ⟨saved, hreaches, hsound⟩, hreached⟩
  rw [register_run, register_run, ← hfunctions]
  by_cases hfrozen : l.functions.isFrozen = true
  · simp only [hfrozen, if_true]
    exact ⟨.error _, hfunctions, ⟨saved, hreaches, hsound⟩, hreached⟩
  · simp only [hfrozen]
    refine ⟨.ok rfl, congrArg (Registry.put · f) rfl, ⟨saved, hreaches, ?_⟩, hreached⟩
    -- Nothing was stored before the first parse, which freezes the functions.
    exact fun entry hentry => absurd (hsound entry hentry).1 hfrozen

theorem corresponds_registerAll (fs : List Function) :
    Corresponds start start' Eq (registerAll (σ := σ) fs) (registerAll (σ := τ) fs) := by
  induction fs with
  | nil => exact corresponds_pure rfl
  | cons f fs ih => exact (corresponds_register f).bind fun _ _ _ => ih

theorem corresponds_parseAnew (source : String) (declared : Option (List Variable))
    (leniency : Leniency) : Corresponds start start' Eq (parseAnew (σ := σ) source declared leniency)
      (parseAnew (σ := τ) source declared leniency) := by
  intro l l' hl
  rw [parseAnew_run, parseAnew_run, hl.functions]
  cases parseText (Scope.ofVariables l'.functions.names declared leniency) source with
  | ok tree => exact ⟨.ok rfl, hl⟩
  | error e => exact ⟨.error _, hl⟩

/-- A language whose functions are frozen and whose store was asked for a key. -/
def asked (l : Language σ) (key : String) : Language σ :=
  { l with functions := l.functions.freeze, cache := (Cache.lookup l.cache key).2 }

/-- A language that has given a stamp to a parse and has offered the parse to its store. -/
def keeping (l : Language σ) (item : CacheItem) (source : String) (tree : Expr) : Language σ :=
  { l with
    nextStamp := l.nextStamp + 1
    cache := (Cache.save l.cache (item.withValue ⟨source, tree, l.nextStamp⟩)).2 }

/-- What parsing a text does once the store has answered. -/
theorem parse_text_run {source : String} {declared : List Variable} {leniency : Leniency}
    {l : Language σ} {item : CacheItem}
    (hlookup : (Cache.lookup l.cache (cacheKey source declared leniency)).1 = .ok item) :
    (parse (.text source) declared leniency).run l =
      let m := l.asked (cacheKey source declared leniency)
      match item.value with
      | some p => (.ok p, m)
      | none =>
        match parseText (Scope.ofVariables l.functions.names (some declared) leniency) source with
        | .ok tree => (.ok ⟨source, tree, l.nextStamp⟩, m.keeping item source tree)
        | .error e => (.error (.malformed e), m) := by
  have hfreeze : (freeze (σ := σ)).run l = (.ok (), { l with functions := l.functions.freeze }) := rfl
  have hasked : (lookup (cacheKey source declared leniency)).run
      { l with functions := l.functions.freeze } =
      (.ok item, l.asked (cacheKey source declared leniency)) := by
    have hget (m : Language σ) : (get : Session σ (Language σ)).run m = (.ok m, m) := rfl
    rw [lookup, bind_run, hget, asked]
    dsimp only
    generalize Cache.lookup l.cache (cacheKey source declared leniency) = r at hlookup ⊢
    obtain ⟨result, cache⟩ := r
    obtain rfl := hlookup
    rfl
  rw [parse, bind_run, hfreeze]
  dsimp only
  rw [bind_run, hasked]
  dsimp only
  cases item.value with
  | some p => rfl
  | none =>
    dsimp only
    rw [bind_run, parseAnew_run]
    have hnames : (l.asked (cacheKey source declared leniency)).functions.names =
      l.functions.names := rfl
    rw [hnames]
    cases parseText (Scope.ofVariables l.functions.names declared leniency) source with
    | error e => rfl
    | ok tree => rfl

/-- Parsed expressions that agree but for their stamps. -/
def ParsedAlike (p p' : Parsed) : Prop := p.source = p'.source ∧ p.tree = p'.tree

variable (hrecalls : Cache.Recalls start) (hforgets : Cache.Forgets start')
include hrecalls hforgets

theorem corresponds_parse_text (source : String) {declared : List Variable} (leniency : Leniency)
    (hident : ∀ v ∈ declared, v.IsIdentifier) (hunamb : Variable.Unambiguous declared) :
    Corresponds start start' ParsedAlike (parse (σ := σ) (.text source) declared leniency)
      (parse (σ := τ) (.text source) declared leniency) := by
  rintro l l' ⟨hfunctions, ⟨saved, hreaches, hsound⟩, saved', hreaches'⟩
  have hkey := validateKey_cacheKey source declared leniency
  obtain ⟨item, hitem, hname, hsaved⟩ := hrecalls saved l.cache _ hreaches hkey
  obtain ⟨item', hitem', hnone⟩ := hforgets saved' l'.cache _ hreaches' hkey
  rw [parse_text_run hitem, parse_text_run hitem', hnone, ← hfunctions]
  have hasked : Agree start start' (l.asked (cacheKey source declared leniency))
      (l'.asked (cacheKey source declared leniency)) :=
    ⟨congrArg Registry.freeze hfunctions, ⟨saved, hreaches.lookup _, fun entry hentry =>
      (hsound entry hentry).freeze⟩, saved', hreaches'.lookup _⟩
  have hkept (tree : Expr) : ∃ saved, Cache.Reaches start' saved
      ((l'.asked (cacheKey source declared leniency)).keeping item' source tree).cache :=
    ⟨_, .save (item'.withValue _) rfl (hreaches'.lookup _)⟩
  cases hvalue : item.value with
  | some p =>
    -- What is found was parsed under the same variables, perhaps in another order.
    obtain ⟨-, declared', leniency', hkeys, hident', hunamb', htree⟩ := hsound _ (hsaved p hvalue)
    obtain ⟨hsource, hperm, hleniency⟩ := cacheKey_inj hident hident' hkeys
    rw [← hsource, ← hleniency] at htree
    have hparse := Parsing.parseText_perm hperm.symm hunamb' _ _ htree
    simp only [hparse]
    exact ⟨.ok ⟨hsource.symm, rfl⟩, hasked.functions, hasked.stored, hkept p.tree⟩
  | none =>
    dsimp only
    cases hparse : parseText (Scope.ofVariables l.functions.names declared leniency) source with
    | error e => exact ⟨.error _, hasked⟩
    | ok tree =>
      -- Both sides parse, and what the first one stores is sound for the later requests.
      refine ⟨.ok ⟨rfl, rfl⟩, hasked.functions, ?_, hkept tree⟩
      refine ⟨_, .save (item.withValue ⟨source, tree, _⟩) rfl (hreaches.lookup _), ?_⟩
      intro entry hentry
      rcases List.mem_cons.mp hentry with rfl | hentry
      · exact ⟨rfl, declared, leniency, hname, hident, hunamb, hparse⟩
      · exact (hsound entry hentry).freeze

theorem corresponds_parse {input input' : Input} (hinput : input.Alike input')
    {declared : List Variable} (leniency : Leniency) (hident : ∀ v ∈ declared, v.IsIdentifier)
    (hunamb : Variable.Unambiguous declared) :
    Corresponds start start' ParsedAlike (parse (σ := σ) input declared leniency)
      (parse (σ := τ) input' declared leniency) := by
  cases hinput with
  | text source => exact corresponds_parse_text hrecalls hforgets source leniency hident hunamb
  | parsed hsource htree => exact corresponds_pure ⟨hsource, htree⟩

theorem corresponds_perform {r r' : Request} (h : r.Alike r') (hproper : r.IsProper) :
    Corresponds start start' Eq (r.perform (σ := σ)) (r'.perform (σ := τ)) := by
  obtain ⟨hident, hunamb⟩ := hproper
  cases h with
  | parse declared leniency hi =>
    refine (corresponds_parse hrecalls hforgets hi leniency hident hunamb).bind fun p p' hp => ?_
    exact corresponds_pure (by rw [hp.1, hp.2])
  | evaluate host context hi =>
    refine Corresponds.bind (R := Eq) ?_ fun _ _ h => corresponds_pure (congrArg Answer.value h)
    refine (corresponds_parse hrecalls hforgets hi {} hident hunamb).bind fun p p' hp => ?_
    refine corresponds_get.bind fun l l' hl => corresponds_pure ?_
    rw [hp.2, hl]
  | compile declared hi =>
    refine Corresponds.bind (R := Eq) ?_ fun _ _ h => corresponds_pure (congrArg Answer.script h)
    refine (corresponds_parse hrecalls hforgets hi {} hident hunamb).bind fun p p' hp => ?_
    refine corresponds_get.bind fun l l' hl => corresponds_pure ?_
    rw [hp.2, hl]
  | lint declared leniency hi =>
    refine Corresponds.bind (R := Eq) ?_ fun _ _ _ => corresponds_pure rfl
    cases hi with
    | parsed => exact corresponds_pure rfl
    | text source =>
      refine corresponds_freeze.bind fun _ _ _ => ?_
      exact (corresponds_parseAnew source declared leniency).bind fun _ _ _ => corresponds_pure rfl
  | register f => exact (corresponds_register f).bind fun _ _ _ => corresponds_pure rfl
  | registerAll fs => exact (corresponds_registerAll fs).bind fun _ _ _ => corresponds_pure rfl

theorem answers_eq_of_agree {rs rs' : List Request} (h : List.Forall₂ Request.Alike rs rs')
    (hproper : ∀ r ∈ rs, r.IsProper) {l : Language σ} {l' : Language τ}
    (hl : Agree start start' l l') : answers rs l = answers rs' l' := by
  induction h generalizing l l' with
  | nil => rfl
  | @cons r r' rs rs' hr _ ih =>
    obtain ⟨hresults, hagree⟩ :=
      corresponds_perform hrecalls hforgets hr (hproper r List.mem_cons_self) l l' hl
    have hrest := ih (fun r hr => hproper r (List.mem_cons_of_mem _ hr)) hagree
    rw [answers_cons, answers_cons, hresults.eq, hrest]

end

/-- A language whose store recalls what was saved, and may forget it, answers any requests as one
whose store keeps nothing does. -/
theorem answers_eq_of_recalls [Cache σ] [Cache τ] {l : Language σ} {l' : Language τ}
    (hfunctions : l.functions = l'.functions) (hrecalls : Cache.Recalls l.cache)
    (hforgets : Cache.Forgets l'.cache) {rs rs' : List Request}
    (halike : List.Forall₂ Request.Alike rs rs') (hproper : ∀ r ∈ rs, r.IsProper) :
    answers rs l = answers rs' l' := by
  refine answers_eq_of_agree hrecalls hforgets halike hproper ⟨hfunctions, ⟨[], .start, ?_⟩, [], .start⟩
  exact fun entry hentry => absurd hentry (by simp)

/-- Parses under two orders of the same variables, with attempts to register between and behind. -/
def reorderedRequests : List Request :=
  [.register (Builtin.enum none), .parse (.text "a + b") [.plain "b", .aliased "k" "a"] {},
    .register Builtin.min, .parse (.text "a + b") [.aliased "k" "a", .plain "b"] {},
    .evaluate (fun _ _ => .ok .null) (.text "a + b") [("a", .int 1), ("b", .int 2)]]

theorem answers_reorderedRequests :
    answers reorderedRequests (withCache (BoundedCache.ofCapacity 1)) =
      answers reorderedRequests (withCache EmptyCache.mk) := by
  have hfunctions : (withCache (BoundedCache.ofCapacity 1)).functions =
    (withCache EmptyCache.mk).functions := rfl
  refine answers_eq_of_recalls hfunctions (BoundedCache.recalls rfl) (EmptyCache.forgets _) ?_ ?_
  · exact .cons (.register _) (.cons (.parse _ _ (.text _)) (.cons (.register _)
      (.cons (.parse _ _ (.text _)) (.cons (.evaluate _ _ (.text _)) .nil))))
  · have hident : ∀ name ∈ ["a", "b", "k"], Parsing.isIdentifier name = true := by decide
    intro r hr
    simp only [reorderedRequests, List.mem_cons, List.not_mem_nil, or_false] at hr
    obtain rfl | rfl | rfl | rfl | rfl := hr <;>
      simp [Request.IsProper, Request.declared, Variable.IsIdentifier, Variable.Unambiguous, hident,
        Dict.keys]

end Language
end Formula
