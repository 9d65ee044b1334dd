import Mathlib
import Formula.Proofs.Cache.Recall

/-! What a timed store answers while no time passes. It stands for a map from keys to values, and what
the map has for a key can be told from the changes so far. -/

namespace Formula

/-- `Q` was so at some time, and `R` has been so since. -/
def Since {α : Type} (Q R : α → Prop) (history : List α) : Prop :=
  ∃ before a after, history = before ++ a :: after ∧ Q a ∧ ∀ b ∈ after, R b

section

variable {α : Type} {Q R : α → Prop}

theorem not_since_nil : ¬Since Q R [] := by
  rintro ⟨before, a, after, h, -⟩
  exact absurd h.symm (by simp)

theorem since_concat {history : List α} {a : α} :
    Since Q R (history ++ [a]) ↔ Q a ∨ R a ∧ Since Q R history := by
  constructor
  · rintro ⟨before, b, after, h, hQ, hR⟩
    rcases after.eq_nil_or_concat with rfl | ⟨after, last, rfl⟩
    · obtain ⟨-, hlast⟩ := List.append_inj' h rfl
      obtain rfl := List.singleton_inj.mp hlast
      exact .inl hQ
    · rw [List.concat_eq_append, ← List.cons_append, ← List.append_assoc] at h
      obtain ⟨hhistory, hlast⟩ := List.append_inj' h rfl
      obtain rfl := List.singleton_inj.mp hlast
      rw [List.concat_eq_append, List.forall_mem_append, List.forall_mem_singleton] at hR
      exact .inr ⟨hR.2, before, b, after, hhistory, hQ, hR.1⟩
  · rintro (hQ | ⟨hRa, before, b, after, rfl, hQ, hR⟩)
    · exact ⟨history, a, [], rfl, hQ, nofun⟩
    · refine ⟨before, b, after ++ [a], by simp, hQ, ?_⟩
      rw [List.forall_mem_append, List.forall_mem_singleton]
      exact ⟨hR, hRa⟩

end

namespace TimedCache

/-- What becomes of the entries: a value is saved for as long as the lifetime tells, or entries are
dropped. Without a lifetime a value stays. -/
inductive Change
  | put (key : String) (value : Parsed) (lifetime : Option Nat)
  | drop (key : String)
  | dropAll

namespace Change

def apply (map : String → Option Parsed) : Change → String → Option Parsed
  | put key value lifetime =>
    Function.update map key (if lifetime = some 0 then none else some value)
  | drop key => Function.update map key none
  | dropAll => fun _ => none

/-- A save under the key that lasts. -/
def Puts (key : String) (value : Parsed) : Change → Prop
  | put k v lifetime => k = key ∧ v = value ∧ lifetime ≠ some 0
  | _ => False

/-- A save under the key that does not last drops the entry as well. -/
def Drops (key : String) : Change → Prop
  | put k _ lifetime => k = key ∧ lifetime = some 0
  | drop k => k = key
  | dropAll => True

variable {map : String → Option Parsed} {key : String}

theorem apply_eq_some_iff {value : Parsed} (change : Change) :
    change.apply map key = some value ↔
      change.Puts key value ∨ (¬change.Drops key ∧ ∀ v, ¬change.Puts key v) ∧ map key = some value := by
  cases change with
  | put k v lifetime =>
    by_cases hk : k = key
    · subst hk
      by_cases hlifetime : lifetime = some 0 <;> simp [apply, Puts, Drops, hlifetime]
    · simp [apply, Puts, Drops, hk, Function.update_of_ne (Ne.symm hk)]
  | drop k =>
    by_cases hk : k = key
    · subst hk
      simp [apply, Puts, Drops]
    · simp [apply, Puts, Drops, hk, Function.update_of_ne (Ne.symm hk)]
  | dropAll => simp [apply, Puts, Drops]

theorem isSome_apply_iff (change : Change) :
    (change.apply map key).isSome = true ↔
      (∃ v, change.Puts key v) ∨ ¬change.Drops key ∧ (map key).isSome = true := by
  rw [Option.isSome_iff_exists, Option.isSome_iff_exists]
  simp only [apply_eq_some_iff]
  constructor
  · rintro ⟨v, hputs | ⟨⟨hdrops, -⟩, hmap⟩⟩
    · exact .inl ⟨v, hputs⟩
    · exact .inr ⟨hdrops, v, hmap⟩
  · rintro (⟨v, hputs⟩ | ⟨hdrops, v, hmap⟩)
    · exact ⟨v, .inl hputs⟩
    · by_cases hputs : ∃ v, change.Puts key v
      · obtain ⟨w, hw⟩ := hputs
        exact ⟨w, .inl hw⟩
      · exact ⟨v, .inr ⟨⟨hdrops, not_exists.mp hputs⟩, hmap⟩⟩

end Change

/-- The map that changes come to. -/
def contents (changes : List Change) : String → Option Parsed :=
  changes.foldl Change.apply fun _ => none

theorem contents_concat (changes : List Change) (change : Change) :
    contents (changes ++ [change]) = change.apply (contents changes) := by
  rw [contents, List.foldl_append]
  rfl

/-- The map has the value of the latest save under a key that lasts, unless it was dropped. -/
theorem contents_eq_some_iff {changes : List Change} {key : String} {value : Parsed} :
    contents changes key = some value ↔
      Since (·.Puts key value) (fun change => ¬change.Drops key ∧ ∀ v, ¬change.Puts key v) changes := by
  induction changes using List.reverseRecOn with
  | nil => exact iff_of_false nofun not_since_nil
  | append_singleton changes change ih =>
    rw [contents_concat, Change.apply_eq_some_iff, since_concat, ih]

theorem isSome_contents_iff {changes : List Change} {key : String} :
    (contents changes key).isSome = true ↔
      Since (fun change => ∃ v, change.Puts key v) (fun change => ¬change.Drops key) changes := by
  induction changes using List.reverseRecOn with
  | nil => exact iff_of_false nofun not_since_nil
  | append_singleton changes change ih =>
    rw [contents_concat, Change.isSome_apply_iff, since_concat, ih]

/-- The store has the values of the map under valid keys, and none of them has expired. -/
structure Holds (now : Nat) (lifetime : Option Nat) (map : String → Option Parsed) (c : TimedCache) :
    Prop where
  now : c.now = now
  lifetime : c.lifetime = lifetime
  nodup : c.entries.keys.Nodup
  valid : ∀ key ∈ c.entries.keys, validateKey key = .ok ()
  unexpired : ∀ key value expiry, c.entries.get? key = some (value, expiry) →
    c.isExpired expiry = false
  value : ∀ key, (c.entries.get? key).map Prod.fst = map key

/-- For how long an item is kept: as it asks for itself, else as the store has it. -/
def lifetimeOf (c : TimedCache) (item : CacheItem) : Option Nat :=
  item.expiry.map (· - c.now) <|> c.lifetime

theorem isExpired_iff_lifetimeOf (c : TimedCache) (item : CacheItem) :
    c.isExpired (item.expiry <|> c.lifetime.map (c.now + ·)) = true ↔
      c.lifetimeOf item = some 0 := by
  unfold isExpired lifetimeOf
  cases item.expiry with
  | some time => simp [Nat.sub_eq_zero_iff_le]
  | none => cases c.lifetime <;> simp

section

variable {now : Nat} {lifetime : Option Nat} {map : String → Option Parsed} {c : TimedCache}

theorem holds_empty (now : Nat) (lifetime : Option Nat) :
    Holds now lifetime (fun _ => none) { now, lifetime } where
  now := rfl
  lifetime := rfl
  nodup := List.nodup_nil
  valid := nofun
  unexpired := nofun
  value _ := rfl

theorem Holds.live_eq (h : c.Holds now lifetime map) (key : String) : c.live key = (map key, c) := by
  have hvalue := h.value key
  unfold live
  cases hget : c.entries.get? key with
  | none =>
    rw [hget] at hvalue
    rw [← hvalue]
    rfl
  | some entry =>
    obtain ⟨value, expiry⟩ := entry
    rw [hget] at hvalue
    have hexpiry := h.unexpired key value expiry hget
    rw [← hvalue]
    simp [hexpiry]

theorem Holds.erase (h : c.Holds now lifetime map) (key : String) :
    Holds now lifetime (Function.update map key none) { c with entries := c.entries.erase key } where
  now := h.now
  lifetime := h.lifetime
  nodup := by
    rw [Dict.keys_erase]
    exact h.nodup.erase key
  valid k hk := by
    rw [Dict.keys_erase] at hk
    exact h.valid k (List.mem_of_mem_erase hk)
  unexpired k value expiry hget := by
    by_cases hk : k = key
    · rw [hk, Dict.get?_erase_self h.nodup] at hget
      cases hget
    · rw [Dict.get?_erase_of_ne _ hk] at hget
      exact h.unexpired k value expiry hget
  value k := by
    by_cases hk : k = key
    · rw [hk, Dict.get?_erase_self h.nodup, Function.update_self]
      rfl
    · rw [Dict.get?_erase_of_ne _ hk, Function.update_of_ne hk]
      exact h.value k

theorem Holds.put (h : c.Holds now lifetime map) {key : String} (hkey : validateKey key = .ok ())
    (value : Parsed) {expiry : Option Nat} (hexpiry : c.isExpired expiry = false) :
    Holds now lifetime (Function.update map key (some value))
      { c with entries := c.entries.put key (value, expiry) } where
  now := h.now
  lifetime := h.lifetime
  nodup := by
    rw [Dict.keys_put]
    split
    · exact h.nodup
    · rw [← List.concat_eq_append]
      exact h.nodup.concat ‹_›
  valid k hk := by
    rw [Dict.keys_put] at hk
    split at hk
    · exact h.valid k hk
    · rcases List.mem_append.mp hk with hk | hk
      · exact h.valid k hk
      · rwa [List.mem_singleton.mp hk]
  unexpired k value' expiry' hget := by
    by_cases hk : k = key
    · rw [hk, Dict.get?_put_self] at hget
      cases hget
      exact hexpiry
    · rw [Dict.get?_put_of_ne _ _ hk] at hget
      exact h.unexpired k value' expiry' hget
  value k := by
    by_cases hk : k = key
    · rw [hk, Dict.get?_put_self, Function.update_self]
      rfl
    · rw [Dict.get?_put_of_ne _ _ hk, Function.update_of_ne hk]
      exact h.value k

theorem Holds.clear (h : c.Holds now lifetime map) :
    Holds now lifetime (fun _ => none) { c with entries := [] } where
  now := h.now
  lifetime := h.lifetime
  nodup := List.nodup_nil
  valid := nofun
  unexpired := nofun
  value _ := rfl

theorem Holds.lookup_eq (h : c.Holds now lifetime map) (key : String) :
    Cache.lookup c key = withValidKey key c (itemFor key (map key), c) := by
  show withValidKey key c (itemFor key (c.live key).1, (c.live key).2) = _
  rw [h.live_eq]

theorem Holds.has_eq (h : c.Holds now lifetime map) (key : String) :
    Cache.has c key = withValidKey key c ((map key).isSome, c) := by
  show withValidKey key c ((c.live key).1.isSome, (c.live key).2) = _
  rw [h.live_eq]

/-- To store an item is to put its value in, or to take the old one out if it is kept for no time. -/
theorem Holds.store (h : c.Holds now lifetime map) (item : CacheItem) {value : Parsed}
    (hkey : validateKey item.key = .ok ()) (hvalue : item.value = some value) :
    (c.store item).2.Holds now lifetime
      ((Change.put item.key value (c.lifetimeOf item)).apply map) := by
  have hiff := c.isExpired_iff_lifetimeOf item
  unfold TimedCache.store
  rw [hvalue]
  by_cases hexpired : c.isExpired (item.expiry <|> c.lifetime.map (c.now + ·)) = true
  · simp only [if_pos hexpired, Change.apply, if_pos (hiff.mp hexpired)]
    exact h.erase item.key
  · simp only [if_neg hexpired, Change.apply, if_neg (mt hiff.mpr hexpired)]
    exact h.put hkey value (Bool.eq_false_iff.mpr hexpired)

/-- A value is computed only if there is none, and then stored. -/
theorem Holds.getOrCompute_eq (h : c.Holds now lifetime map) {key : String}
    (hkey : validateKey key = .ok ()) (compute : Unit → Except CacheError Parsed) :
    c.getOrCompute key compute = match map key with
      | some value => (.ok (value, false), c)
      | none => match compute () with
        | .error e => (.error e, c)
        | .ok value => (.ok (value, true), (c.store { key, value := some value }).2) := by
  unfold getOrCompute
  rw [h.lookup_eq, withValidKey_of_valid hkey]
  cases map key with
  | some value => rfl
  | none =>
    cases compute () with
    | error e => rfl
    | ok value =>
      have hsave : Cache.save c { key, value := some value } =
          (.ok (c.store { key, value := some value }).1, (c.store { key, value := some value }).2) :=
        withValidKey_of_valid hkey c (c.store { key, value := some value })
      simp only [itemFor, CacheItem.withValue, hsave]

end

/-- Fetches an item and saves it again with a new value, perhaps with a lifetime of its own. -/
def update (c : TimedCache) (key : String) (value : Parsed) (lifetime : Option Nat) :
    Except CacheError Bool × TimedCache :=
  match Cache.lookup c key with
  | (.error e, c) => (.error e, c)
  | (.ok item, c) =>
    let item := item.withValue value
    Cache.save c (lifetime.elim item fun time => item.expiringAt (c.now + time))

inductive Operation
  | lookup (key : String)
  | save (item : CacheItem)
  | update (key : String) (value : Parsed) (lifetime : Option Nat)
  | has (key : String)
  | delete (key : String)
  | clear
  | getOrCompute (key : String) (compute : Unit → Except CacheError Parsed)

/-- Why an operation may fail: its key is not valid, or what it computes fails. -/
def Operation.MayFail (e : CacheError) : Operation → Prop
  | lookup key | update key _ _ | has key | delete key => validateKey key = .error e
  | save item => validateKey item.key = .error e
  | clear => False
  | getOrCompute key compute => validateKey key = .error e ∨ compute () = .error e

inductive Reply
  | item (item : CacheItem)
  | flag (flag : Bool)
  | value (value : Parsed) (computed : Bool)

def perform (c : TimedCache) : Operation → Except CacheError Reply × TimedCache
  | .lookup key => (Cache.lookup c key).map (·.map .item) id
  | .save item => (Cache.save c item).map (·.map .flag) id
  | .update key value lifetime => (c.update key value lifetime).map (·.map .flag) id
  | .has key => (Cache.has c key).map (·.map .flag) id
  | .delete key => (Cache.delete c key).map (·.map .flag) id
  | .clear => (Cache.clear c).map (fun flag => .ok (.flag flag)) id
  | .getOrCompute key compute =>
    (c.getOrCompute key compute).map (·.map fun p => .value p.1 p.2) id

/-- The change that goes with a reply. What is computed is saved like an item without a lifetime of its
own. -/
def noted (c : TimedCache) : Operation → Reply → Option Change
  | .save item, _ => item.value.map fun value => .put item.key value (c.lifetimeOf item)
  | .update key value lifetime, _ => some (.put key value (lifetime <|> c.lifetime))
  | .delete key, _ => some (.drop key)
  | .clear, _ => some .dropAll
  | .getOrCompute key _, .value value true => some (.put key value c.lifetime)
  | _, _ => none

/-- What an operation changes: nothing, if it fails. -/
def change? (c : TimedCache) (operation : Operation) : Option Change :=
  (c.perform operation).1.toOption.bind (c.noted operation)

def after : TimedCache → List Operation → TimedCache
  | c, [] => c
  | c, operation :: operations => after (c.perform operation).2 operations

/-- The changes that operations make one after another. -/
def history : TimedCache → List Operation → List Change
  | _, [] => []
  | c, operation :: operations =>
    (c.change? operation).toList ++ history (c.perform operation).2 operations

section

variable {now : Nat} {lifetime : Option Nat} {map : String → Option Parsed} {c : TimedCache}

/-- An update stores an item that has lost the lifetime it had. -/
theorem Holds.update_eq (h : c.Holds now lifetime map) (key : String) (value : Parsed)
    (own : Option Nat) :
    ∃ item, item.key = key ∧ item.value = some value ∧
      c.lifetimeOf item = (own <|> c.lifetime) ∧
      c.update key value own = withValidKey key c (c.store item) := by
  have hfetched : (itemFor key (map key)).key = key ∧ (itemFor key (map key)).expiry = none := by
    cases map key <;> exact ⟨rfl, rfl⟩
  let item := (itemFor key (map key)).withValue value
  let saved := own.elim item fun time => item.expiringAt (c.now + time)
  have hsaved : saved.key = key := by cases own <;> exact hfetched.1
  refine ⟨saved, hsaved, ?_, ?_, ?_⟩
  · cases own <;> rfl
  · cases own with
    | none => simp [saved, item, lifetimeOf, CacheItem.withValue, hfetched.2]
    | some time => simp [saved, item, lifetimeOf, CacheItem.expiringAt]
  · unfold TimedCache.update
    rw [h.lookup_eq]
    cases hkey : validateKey key with
    | error e => rw [withValidKey_of_invalid hkey, withValidKey_of_invalid hkey]
    | ok =>
      rw [withValidKey_of_valid hkey]
      show withValidKey saved.key c (c.store saved) = _
      rw [hsaved]

/-- What can come of an operation: it fails with reason and changes nothing, or succeeds and changes
nothing, or makes the change that goes with its reply. -/
inductive Effect (now : Nat) (lifetime : Option Nat) (map : String → Option Parsed) (c : TimedCache)
    (operation : Operation) : Except CacheError Reply × TimedCache → Prop
  | fails {e} : operation.MayFail e → Effect now lifetime map c operation (.error e, c)
  | keeps {reply} : c.noted operation reply = none → Effect now lifetime map c operation (.ok reply, c)
  | changes {reply change c'} : c.noted operation reply = some change →
      c'.Holds now lifetime (change.apply map) → Effect now lifetime map c operation (.ok reply, c')

theorem effect_withValidKey {α : Type} {operation : Operation} {key : String} {f : α × TimedCache}
    {g : α → Reply} (hfails : ∀ e, validateKey key = .error e → operation.MayFail e)
    (h : validateKey key = .ok () → Effect now lifetime map c operation (.ok (g f.1), f.2)) :
    Effect now lifetime map c operation ((withValidKey key c f).map (·.map g) id) := by
  cases hkey : validateKey key with
  | error e =>
    rw [withValidKey_of_invalid hkey]
    exact .fails (hfails e hkey)
  | ok =>
    rw [withValidKey_of_valid hkey]
    exact h hkey

theorem Holds.effect (h : c.Holds now lifetime map) (operation : Operation) :
    Effect now lifetime map c operation (c.perform operation) := by
  cases operation with
  | lookup key =>
    rw [perform, h.lookup_eq]
    exact effect_withValidKey (fun _ => id) fun _ => .keeps rfl
  | save item =>
    show Effect _ _ _ _ _ ((withValidKey item.key c (c.store item)).map (·.map .flag) id)
    refine effect_withValidKey (fun _ => id) fun hkey => ?_
    cases hvalue : item.value with
    | none =>
      have hstore : c.store item = (false, c) := by rw [TimedCache.store, hvalue]
      rw [hstore]
      exact .keeps (by rw [noted, hvalue]; rfl)
    | some value => exact .changes (by rw [noted, hvalue]; rfl) (h.store item hkey hvalue)
  | update key value own =>
    obtain ⟨item, rfl, hvalue, hlifetime, hupdate⟩ := h.update_eq key value own
    rw [perform, hupdate]
    refine effect_withValidKey (fun _ => id) fun hkey => .changes rfl ?_
    rw [← hlifetime]
    exact h.store item hkey hvalue
  | has key =>
    rw [perform, h.has_eq]
    exact effect_withValidKey (fun _ => id) fun _ => .keeps rfl
  | delete key =>
    have hdelete : Cache.delete c key =
        withValidKey key c (true, { c with entries := c.entries.erase key }) := rfl
    rw [perform, hdelete]
    exact effect_withValidKey (fun _ => id) fun _ => .changes rfl (h.erase key)
  | clear => exact .changes rfl h.clear
  | getOrCompute key compute =>
    rw [perform]
    cases hkey : validateKey key with
    | error e =>
      have hget : c.getOrCompute key compute = (.error e, c) := by
        rw [TimedCache.getOrCompute, h.lookup_eq, withValidKey_of_invalid hkey]
      rw [hget]
      exact .fails (.inl hkey)
    | ok =>
      rw [h.getOrCompute_eq hkey]
      cases map key with
      | some value => exact .keeps rfl
      | none =>
        cases hcompute : compute () with
        | error e => exact .fails (.inr hcompute)
        | ok value => exact .changes rfl (h.store { key, value := some value } hkey rfl)

theorem Holds.step (h : c.Holds now lifetime map) (operation : Operation) :
    (c.perform operation).2.Holds now lifetime
      ((c.change? operation).toList.foldl Change.apply map) := by
  have heffect := h.effect operation
  unfold change?
  generalize c.perform operation = result at heffect ⊢
  cases heffect with
  | fails => exact h
  | keeps hnoted =>
    rw [Except.toOption, Option.bind_some, hnoted]
    exact h
  | changes hnoted hholds =>
    rw [Except.toOption, Option.bind_some, hnoted]
    exact hholds

theorem Holds.run (h : c.Holds now lifetime map) (operations : List Operation) :
    (c.after operations).Holds now lifetime ((c.history operations).foldl Change.apply map) := by
  induction operations generalizing c map with
  | nil => exact h
  | cons operation operations ih =>
    rw [after, history, List.foldl_append]
    exact ih (h.step operation)

theorem Holds.perform_of_error (h : c.Holds now lifetime map) {operation : Operation} {e : CacheError}
    (herror : (c.perform operation).1 = .error e) :
    operation.MayFail e ∧ (c.perform operation).2 = c := by
  have heffect := h.effect operation
  generalize c.perform operation = result at heffect herror ⊢
  cases heffect with
  | fails hfail =>
    obtain rfl := Except.error.inj herror
    exact ⟨hfail, rfl⟩
  | keeps | changes => cases herror

theorem Holds.perform_save_of_none (h : c.Holds now lifetime map) {item : CacheItem}
    (hvalue : item.value = none) : (c.perform (.save item)).2 = c := by
  have heffect := h.effect (.save item)
  generalize c.perform (.save item) = result at heffect ⊢
  cases heffect with
  | fails | keeps => rfl
  | changes hnoted =>
    rw [noted, hvalue] at hnoted
    cases hnoted

theorem Holds.isSome_iff (h : c.Holds now lifetime map) {key : String} :
    (map key).isSome = true ↔ key ∈ c.entries.keys := by
  rw [← h.value key, Option.isSome_map, Dict.isSome_get?]

theorem Holds.exists_hit_iff (h : c.Holds now lifetime map) {key : String} :
    (∃ p, (Cache.lookup c key).1 = .ok (.hit key p)) ↔ key ∈ c.entries.keys := by
  rw [h.lookup_eq]
  constructor
  · rintro ⟨p, hp⟩
    cases hkey : validateKey key with
    | error e =>
      rw [withValidKey_of_invalid hkey] at hp
      cases hp
    | ok =>
      rw [withValidKey_of_valid hkey] at hp
      rw [← h.isSome_iff]
      cases hmap : map key with
      | none =>
        rw [hmap] at hp
        cases hp
      | some value => rfl
  · intro hmem
    obtain ⟨p, hp⟩ := Option.isSome_iff_exists.mp (h.isSome_iff.mpr hmem)
    rw [withValidKey_of_valid (h.valid key hmem), hp]
    exact ⟨p, rfl⟩

/-- There are as many entries as keys that are found. -/
theorem Holds.size_eq (h : c.Holds now lifetime map) :
    ∃ keys : Finset String, (∀ key, key ∈ keys ↔ ∃ p, (Cache.lookup c key).1 = .ok (.hit key p)) ∧
      c.size = keys.card := by
  refine ⟨c.entries.keys.toFinset, fun key => ?_, ?_⟩
  · rw [List.mem_toFinset, h.exists_hit_iff]
  · rw [List.toFinset_card_of_nodup h.nodup, Dict.keys, List.length_map]
    rfl

end

/-- Whatever is done to an empty store, a look-up of a valid key finds something if it was saved, for
longer than no time, and not dropped since, and then the latest that was. -/
theorem answers_from_history (now : Nat) (lifetime : Option Nat) (operations : List Operation) :
    let c := after { now, lifetime } operations
    let changes := history { now, lifetime } operations
    (∀ key, validateKey key = .ok () → ∃ found,
      (Cache.lookup c key).1 = .ok (itemFor key found) ∧
      (found.isSome = true ↔
        Since (fun change => ∃ v, change.Puts key v) (fun change => ¬change.Drops key) changes) ∧
      (∀ value, found = some value ↔ Since (·.Puts key value)
        (fun change => ¬change.Drops key ∧ ∀ v, ¬change.Puts key v) changes) ∧
      (Cache.has c key).1 = .ok found.isSome ∧
      ∀ compute, (c.getOrCompute key compute).1 = match found with
        | some value => .ok (value, false)
        | none => (compute ()).map fun value => (value, true)) ∧
    (∃ keys : Finset String, (∀ key, key ∈ keys ↔ ∃ p, (Cache.lookup c key).1 = .ok (.hit key p)) ∧
      c.size = keys.card) ∧
    (∀ operation e, (c.perform operation).1 = .error e →
      operation.MayFail e ∧ (c.perform operation).2 = c) ∧
    (∀ item : CacheItem, item.value = none → (c.perform (.save item)).2 = c) ∧
    c.now = now ∧ c.lifetime = lifetime := by
  intro c changes
  have h : c.Holds now lifetime (contents changes) := (holds_empty now lifetime).run operations
  refine ⟨fun key hkey => ⟨contents changes key, ?_, isSome_contents_iff, fun value =>
    contents_eq_some_iff, ?_, fun compute => ?_⟩, h.size_eq, fun _ _ => h.perform_of_error,
    fun _ => h.perform_save_of_none, h.now, h.lifetime⟩
  · rw [h.lookup_eq, withValidKey_of_valid hkey]
  · rw [h.has_eq, withValidKey_of_valid hkey]
  · rw [h.getOrCompute_eq hkey]
    cases contents changes key with
    | some value => rfl
    | none => cases compute () <;> rfl

/-- A value, told from others by its stamp. -/
def sample (stamp : Nat) : Parsed := ⟨"1", .literal (.int 1), stamp⟩

/-- A save and an update with a lifetime of their own, and between them a value that is computed. -/
def sampleOperations : List Operation :=
  [.save ⟨"a", some (sample 0), false, some 15⟩, .getOrCompute "b" fun _ => .ok (sample 1),
    .update "a" (sample 2) (some 10)]

/-- Here the store by itself keeps nothing. -/
theorem answers_from_history_sample :
    validateKey "a" = .ok () ∧
    (Cache.lookup (after { now := 5, lifetime := some 0 } sampleOperations) "a").1 =
      .ok (.hit "a" (sample 2)) ∧
    Since (·.Puts "a" (sample 2)) (fun change => ¬change.Drops "a" ∧ ∀ v, ¬change.Puts "a" v)
      (history { now := 5, lifetime := some 0 } sampleOperations) ∧
    ((after { now := 5, lifetime := some 0 } sampleOperations).perform (.delete "a/b")).2 =
      after { now := 5, lifetime := some 0 } sampleOperations := by
  have hkey : validateKey "a" = .ok () := by cbv
  have hafter : after { now := 5, lifetime := some 0 } sampleOperations =
      ⟨5, some 0, [("a", sample 2, some 15)]⟩ := by
    cbv
  obtain ⟨hkeys, -, hfails, -⟩ := answers_from_history 5 (some 0) sampleOperations
  rw [hafter] at hkeys hfails ⊢
  have hhit : (Cache.lookup (⟨5, some 0, [("a", sample 2, some 15)]⟩ : TimedCache) "a").1 =
      .ok (.hit "a" (sample 2)) := by
    cbv
  have herror : (perform ⟨5, some 0, [("a", sample 2, some 15)]⟩ (.delete "a/b")).1 =
      .error (.reservedCharacter "a/b" '/') := by
    cbv
  obtain ⟨found, hlookup, -, hlatest, -⟩ := hkeys "a" hkey
  have hfound : found = some (sample 2) := by
    have hitem := Except.ok.inj (hlookup.symm.trans hhit)
    cases found with
    | none => cases hitem
    | some value => exact congrArg CacheItem.value hitem
  exact ⟨hkey, hhit, (hlatest _).mp hfound, (hfails _ _ herror).2⟩

end TimedCache
end Formula
