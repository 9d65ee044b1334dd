import Mathlib
import Formula.Proofs.Language.Freezing

/-! The keys that a language hands to its store are valid and lose nothing of the raw text. No operation
fails on account of a store that looks up whatever key is valid. -/

namespace Formula

/-- In every state of such a store the look-up of a valid key succeeds. -/
def Cache.TakesValid (σ : Type) [Cache σ] : Prop :=
  ∀ (s : σ) key, validateKey key = .ok () → ∃ item, (Cache.lookup s key).1 = .ok item

theorem TimedCache.takesValid : Cache.TakesValid TimedCache := fun c key hkey =>
  ⟨itemFor key (c.live key).1,
    congrArg Prod.fst (withValidKey_of_valid hkey c (itemFor key (c.live key).1, (c.live key).2))⟩

theorem BoundedCache.takesValid : Cache.TakesValid BoundedCache := fun c key hkey =>
  ⟨(c.find key).1, congrArg Prod.fst (withValidKey_of_valid hkey c (c.find key))⟩

theorem cacheKey_ne_empty (source : String) (declared : List Variable) (leniency : Leniency) :
    cacheKey source declared leniency ≠ "" := by
  intro hempty
  have hvalid := validateKey_cacheKey source declared leniency
  rw [hempty] at hvalid
  cases hvalid

theorem cacheKey_eq_iff {source source' : String} {declared declared' : List Variable}
    {leniency leniency' : Leniency} :
    cacheKey source declared leniency = cacheKey source' declared' leniency' ↔
      rawCacheKey source declared leniency = rawCacheKey source' declared' leniency' :=
  ⟨Text.percentEncode_inj, congrArg Text.percentEncode⟩

namespace Language

variable {σ α β : Type}

/-- A session that does not fail on account of the store, wherever it begins. -/
def Spares (f : Session σ α) : Prop := ∀ l e, (f.run l).1 ≠ .error (.cache e)

variable {f : Session σ α} {g : α → Session σ β}

theorem spares_pure (a : α) : Spares (pure a : Session σ α) := nofun

theorem spares_get : Spares (get : Session σ (Language σ)) := nofun

theorem Spares.bind (hf : Spares f) (hg : ∀ a, Spares (g a)) : Spares (f >>= g) := by
  intro l e
  rw [bind_run]
  have hrun := hf l e
  generalize f.run l = result at hrun ⊢
  obtain ⟨failure | a, l'⟩ := result
  · exact fun h => hrun (congrArg Except.error (Except.error.inj h))
  · exact hg a l' e

theorem spares_freeze : Spares (freeze (σ := σ)) := nofun

theorem spares_stamp (source : String) (tree : Expr) : Spares (stamp (σ := σ) source tree) := nofun

theorem spares_parseAnew (source : String) (declared : Option (List Variable)) (leniency : Leniency) :
    Spares (parseAnew (σ := σ) source declared leniency) := by
  intro l e
  rw [parseAnew_run]
  cases parseText (Scope.ofVariables l.functions.names declared leniency) source <;> simp

theorem spares_register (f : Function) : Spares (register (σ := σ) f) := by
  intro l e
  rw [register_run]
  split <;> simp

theorem spares_registerAll (fs : List Function) : Spares (registerAll (σ := σ) fs) := by
  induction fs with
  | nil => exact spares_pure ()
  | cons f fs ih => exact (spares_register f).bind fun _ => ih

theorem spares_lint (input : Input) (declared : Option (List Variable)) (leniency : Leniency) :
    Spares (lint (σ := σ) input declared leniency) := by
  cases input with
  | parsed p => exact spares_pure ()
  | text source =>
    exact spares_freeze.bind fun _ =>
      (spares_parseAnew source declared leniency).bind fun _ => spares_pure ()

section

variable [Cache σ]

/-- What the store says to a save is not passed on. -/
theorem spares_store (item : CacheItem) : Spares (store (σ := σ) item) := nofun

variable (hcache : Cache.TakesValid σ)
include hcache

theorem spares_lookup {key : String} (hkey : validateKey key = .ok ()) :
    Spares (lookup (σ := σ) key) := by
  intro l e
  have hget : (get : Session σ (Language σ)).run l = (.ok l, l) := rfl
  obtain ⟨item, hitem⟩ := hcache l.cache key hkey
  rw [lookup, bind_run, hget]
  dsimp only
  generalize Cache.lookup l.cache key = result at hitem ⊢
  obtain ⟨found, cache⟩ := result
  obtain rfl : found = .ok item := hitem
  intro h
  cases h

theorem spares_parse (input : Input) (declared : List Variable) (leniency : Leniency) :
    Spares (parse (σ := σ) input declared leniency) := by
  cases input with
  | parsed p => exact spares_pure p
  | text source =>
    have hkey := validateKey_cacheKey source declared leniency
    refine spares_freeze.bind fun _ => (spares_lookup hcache hkey).bind fun item => ?_
    cases item.value with
    | some p => exact spares_pure p
    | none =>
      refine (spares_parseAnew source _ leniency).bind fun tree => ?_
      refine (spares_stamp source tree).bind fun p => ?_
      exact (spares_store _).bind fun _ => spares_pure p

theorem spares_request (r : Request) : Spares (r.perform (σ := σ)) := by
  cases r with
  | parse input declared leniency =>
    exact (spares_parse hcache input declared leniency).bind fun p => spares_pure _
  | evaluate host input context =>
    refine Spares.bind ((spares_parse hcache input _ {}).bind fun p => ?_) fun v => spares_pure _
    exact spares_get.bind fun l => spares_pure _
  | compile input declared =>
    refine Spares.bind ((spares_parse hcache input declared {}).bind fun p => ?_) fun v => spares_pure _
    exact spares_get.bind fun l => spares_pure _
  | lint input declared leniency =>
    exact (spares_lint input declared leniency).bind fun _ => spares_pure _
  | register f => exact (spares_register f).bind fun _ => spares_pure _
  | registerAll fs => exact (spares_registerAll fs).bind fun _ => spares_pure _

theorem perform_ne_cache (op : Operation) (l : Language σ) (e : CacheError) :
    (op.perform l).1 ≠ .error (.cache e) := by
  cases op with
  | request r => exact spares_request hcache r l e
  | resolve resolver =>
    rw [Operation.perform]
    split <;> exact fun h => by cases h

end

/-- The key of a parse is made of characters without a meaning, so that both stores take it and no
operation fails on account of them; and equal keys come from equal texts. -/
theorem cacheKey_valid_and_faithful (source source' : String) (declared declared' : List Variable)
    (leniency leniency' : Leniency) :
    cacheKey source declared leniency ≠ "" ∧
      (∀ c ∈ (cacheKey source declared leniency).toList,
        c.isAlphanum = true ∨ c ∈ ['-', '_', '.', '~', '%']) ∧
      validateKey (cacheKey source declared leniency) = .ok () ∧
      (∀ (op : Operation) (l : Language TimedCache) e, (op.perform l).1 ≠ .error (.cache e)) ∧
      (∀ (op : Operation) (l : Language BoundedCache) e, (op.perform l).1 ≠ .error (.cache e)) ∧
      Function.Injective Text.percentEncode ∧
      (cacheKey source declared leniency = cacheKey source' declared' leniency' ↔
        rawCacheKey source declared leniency = rawCacheKey source' declared' leniency') :=
  ⟨cacheKey_ne_empty source declared leniency, fun _ => Text.mem_percentEncode,
    validateKey_cacheKey source declared leniency, perform_ne_cache TimedCache.takesValid,
    perform_ne_cache BoundedCache.takesValid, fun _ _ => Text.percentEncode_inj, cacheKey_eq_iff⟩

end Language
end Formula
