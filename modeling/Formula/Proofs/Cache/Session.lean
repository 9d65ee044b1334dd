import Mathlib
import Formula.Proofs.Cache.Recall

/-! Sessions: operations on a store, one after another. For a bounded store they come to uses of
entries, a look-up that finds something as well as a save. -/

namespace Formula

namespace Cache

/-- An item to save may be any item, one from an earlier look-up included. -/
inductive Operation
  | lookup (key : String)
  | save (item : CacheItem)
  | has (key : String)
  | delete (key : String)
  | clear

inductive Reply
  | item (item : CacheItem)
  | flag (flag : Bool)

namespace Operation

def key? : Operation → Option String
  | lookup key | has key | delete key => some key
  | save item => some item.key
  | clear => none

def Saves (key : String) (value : Parsed) : Operation → Prop
  | save item => item.key = key ∧ item.value = some value
  | _ => False

def Drops (key : String) : Operation → Prop
  | delete k => k = key
  | clear => True
  | _ => False

/-- The operation neither saves something under the key nor drops it. -/
def Leaves (key : String) (operation : Operation) : Prop :=
  ¬operation.Drops key ∧ ∀ value, ¬operation.Saves key value

theorem leaves_of_ne {operation : Operation} {key other : String} (hkey : operation.key? = some key)
    (hother : other ≠ key) : operation.Leaves other := by
  cases operation with
  | lookup | has => exact ⟨id, fun _ => id⟩
  | save item => exact ⟨id, fun _ hsaves => hother (hsaves.1.symm.trans (Option.some.inj hkey))⟩
  | delete k => exact ⟨fun hdrops => hother (hdrops.symm.trans (Option.some.inj hkey)), fun _ => id⟩
  | clear => cases hkey

/-- The key that is used, given the reply: a save of a value uses one, and so does a look-up that
finds something. -/
def used? : Operation → Except CacheError Reply → Option String
  | lookup key, .ok (.item item) => if item.isHit then some key else none
  | save item, .ok _ => if item.value.isSome then some item.key else none
  | _, _ => none

theorem used?_error (operation : Operation) (e : CacheError) : operation.used? (.error e) = none := by
  cases operation <;> rfl

theorem used?_save {item : CacheItem} {reply : Reply} :
    (save item).used? (.ok reply) = item.value.map fun _ => item.key := by
  cases h : item.value <;> simp [used?, h]

end Operation

section

variable {σ : Type} [Cache σ]

/-- There is an entry for the key. -/
def Keeps (s : σ) (key : String) : Prop := (Cache.has s key).1 = .ok true

def perform (s : σ) : Operation → Except CacheError Reply × σ
  | .lookup key => (Cache.lookup s key).map (·.map .item) id
  | .save item => (Cache.save s item).map (·.map .flag) id
  | .has key => (Cache.has s key).map (·.map .flag) id
  | .delete key => (Cache.delete s key).map (·.map .flag) id
  | .clear => (Cache.clear s).map (fun flag => .ok (.flag flag)) id

def after (s : σ) : List Operation → σ
  | [] => s
  | operation :: operations => after (perform s operation).2 operations

/-- The keys that operations use, in order. -/
def uses (s : σ) : List Operation → List String
  | [] => []
  | operation :: operations =>
    (operation.used? (perform s operation).1).toList ++ uses (perform s operation).2 operations

theorem after_concat (s : σ) (operations : List Operation) (operation : Operation) :
    after s (operations ++ [operation]) = (perform (after s operations) operation).2 := by
  induction operations generalizing s with
  | nil => rfl
  | cons first operations ih => exact ih (perform s first).2

theorem uses_concat (s : σ) (operations : List Operation) (operation : Operation) :
    uses s (operations ++ [operation]) =
      uses s operations ++ (operation.used? (perform (after s operations) operation).1).toList := by
  induction operations generalizing s with
  | nil => exact List.append_nil _
  | cons first operations ih => rw [List.cons_append, uses, uses, ih, after, List.append_assoc]

end
end Cache

namespace BoundedCache

open Cache (Operation Reply)

theorem length_keys (c : BoundedCache) : c.entries.keys.length = c.size := List.length_map _

section

variable {c : BoundedCache} {key : String}

theorem keys_use (c : BoundedCache) (key : String) (value : Parsed) :
    (c.use key value).entries.keys = key :: (c.entries.keys.erase key).take (c.capacity - 1) := by
  rw [← Dict.keys_erase, Dict.keys, Dict.keys, ← List.map_take]
  rfl

/-- Where there is room for the entry, all others stay. -/
theorem entries_use_of_room (value : Parsed) (hroom : key ∈ c.entries.keys ∨ c.size < c.capacity)
    (hsize : c.size ≤ c.capacity) :
    (c.use key value).entries = (key, value) :: c.entries.erase key := by
  have hlength : (c.entries.erase key).length ≤ c.capacity - 1 := by
    rw [← List.length_map Prod.fst, ← Dict.keys, Dict.keys_erase]
    have := c.length_keys
    by_cases hmem : key ∈ c.entries.keys
    · rw [List.length_erase_of_mem hmem]
      omega
    · rw [List.erase_of_not_mem hmem]
      have := hroom.resolve_left hmem
      omega
  rw [use, List.take_of_length_le hlength]

/-- Otherwise the last goes. -/
theorem keys_use_of_full (value : Parsed) (hnew : key ∉ c.entries.keys) (hfull : c.size = c.capacity)
    (hpos : 0 < c.capacity) :
    ∃ kept evicted, c.entries.keys = kept ++ [evicted] ∧
      (c.use key value).entries.keys = key :: kept := by
  have hlength := c.length_keys
  obtain h | ⟨kept, evicted, h⟩ := c.entries.keys.eq_nil_or_concat
  · rw [h, List.length_nil] at hlength
    omega
  · rw [List.concat_eq_append] at h
    refine ⟨kept, evicted, h, ?_⟩
    have hkept : c.capacity - 1 = kept.length := by
      rw [h, List.length_append, List.length_singleton] at hlength
      omega
    rw [keys_use, List.erase_of_not_mem hnew, h, hkept, List.take_left]

end

/-- What an operation does to a bounded store, and what it replies. -/
inductive Effect (c : BoundedCache) : Operation → Except CacheError Reply × BoundedCache → Prop
  | rejects {operation key e} : operation.key? = some key → validateKey key = .error e →
      Effect c operation (.error e, c)
  | finds {key value} : validateKey key = .ok () → c.entries.get? key = some value →
      Effect c (.lookup key) (.ok (.item (.hit key value)), c.use key value)
  | misses {key} : validateKey key = .ok () → c.entries.get? key = none →
      Effect c (.lookup key) (.ok (.item { key }), c)
  | stores {item value} : validateKey item.key = .ok () → item.value = some value →
      Effect c (.save item) (.ok (.flag true), c.use item.key value)
  | refuses {item} : validateKey item.key = .ok () → item.value = none →
      Effect c (.save item) (.ok (.flag false), c)
  | tells {key} : validateKey key = .ok () →
      Effect c (.has key) (.ok (.flag (c.entries.get? key).isSome), c)
  | deletes {key} : validateKey key = .ok () →
      Effect c (.delete key) (.ok (.flag true), { c with entries := c.entries.erase key })
  | clears : Effect c .clear (.ok (.flag true), { c with entries := [] })

theorem effect_withValidKey {α : Type} {c : BoundedCache} {operation : Operation} {key : String}
    {f : α × BoundedCache} {g : α → Reply} (hkey : operation.key? = some key)
    (h : validateKey key = .ok () → Effect c operation (.ok (g f.1), f.2)) :
    Effect c operation ((withValidKey key c f).map (·.map g) id) := by
  cases hvalid : validateKey key with
  | error e =>
    rw [withValidKey_of_invalid hvalid]
    exact .rejects hkey hvalid
  | ok =>
    rw [withValidKey_of_valid hvalid]
    exact h hvalid

theorem effect (c : BoundedCache) (operation : Operation) :
    Effect c operation (Cache.perform c operation) := by
  cases operation with
  | lookup key =>
    refine effect_withValidKey rfl fun hvalid => ?_
    unfold find
    cases hget : c.entries.get? key with
    | none => exact .misses hvalid hget
    | some value => exact .finds hvalid hget
  | save item =>
    refine effect_withValidKey rfl fun hvalid => ?_
    unfold store
    cases hvalue : item.value with
    | none => exact .refuses hvalid hvalue
    | some value => exact .stores hvalid hvalue
  | has key => exact effect_withValidKey rfl .tells
  | delete key => exact effect_withValidKey rfl .deletes
  | clear => exact .clears

/-- A save of a value under a valid key uses it, and any other save does nothing. -/
theorem save_cases (c : BoundedCache) (item : CacheItem) :
    (¬(validateKey item.key = .ok () ∧ item.value.isSome = true) ∧
      (Cache.perform c (.save item)).2 = c) ∨
    ∃ value, item.value = some value ∧ (Cache.perform c (.save item)).2 = c.use item.key value := by
  have heffect := c.effect (.save item)
  generalize Cache.perform c (.save item) = result at heffect ⊢
  cases heffect with
  | rejects hkey hinvalid =>
    refine .inl ⟨fun h => ?_, rfl⟩
    rw [← Option.some.inj hkey, h.1] at hinvalid
    cases hinvalid
  | stores _ hvalue => exact .inr ⟨_, hvalue, rfl⟩
  | refuses _ hvalue => exact .inl ⟨by simp [hvalue], rfl⟩

end BoundedCache
end Formula
