import Mathlib
import Formula.Proofs.Cache.Recency

/-! A bounded store with room enough beside a timed store, while no time passes. They differ only where
an item was saved whose own time had come: the timed store has no such entry, and the bounded one keeps
it. -/

namespace Formula

namespace Cache

namespace Operation

/-- A look at the entry for the key. -/
def Asks (key : String) : Operation → Prop
  | lookup k | has k => k = key
  | _ => False

/-- A save of a value whose own time has come. -/
def Lapses (now : Nat) (key : String) : Operation → Prop
  | save item => item.key = key ∧ validateKey key = .ok () ∧ item.value.isSome = true ∧
      item.expiry.any (· ≤ now) = true
  | _ => False

theorem Lapses.key?_eq {now : Nat} {key : String} {operation : Operation}
    (h : operation.Lapses now key) : operation.key? = some key ∧ validateKey key = .ok () := by
  cases operation with
  | save item => exact ⟨congrArg some h.1, h.2.1⟩
  | lookup | has | delete | clear => exact h.elim

end Operation

/-- The latest value under the key was saved when its own time had come. -/
def Lapsed (now : Nat) (key : String) (operations : List Operation) : Prop :=
  Since (·.Lapses now key) (Operation.Leaves key) operations

/-- The keys that operations are about. -/
def keysOf (operations : List Operation) : Finset String :=
  (operations.filterMap Operation.key?).toFinset

theorem lapsed_concat {now : Nat} {key : String} {operations : List Operation}
    {operation : Operation} :
    Lapsed now key (operations ++ [operation]) ↔
      operation.Lapses now key ∨ operation.Leaves key ∧ Lapsed now key operations :=
  since_concat

theorem not_lapsed_concat {now : Nat} {key : String} {operations : List Operation}
    {operation : Operation} (hleaves : operation.Leaves key)
    (h : ¬Lapsed now key (operations ++ [operation])) : ¬Lapsed now key operations :=
  fun hlapsed => h (lapsed_concat.mpr (.inr ⟨hleaves, hlapsed⟩))

section

variable {σ τ α β : Type} {key : String}

theorem withValidKey_fst_congr {s : σ} {t : τ} {f : α × σ} {g : α × τ} (h : f.1 = g.1) (r : α → β) :
    ((withValidKey key s f).map (·.map r) id).1 = ((withValidKey key t g).map (·.map r) id).1 := by
  cases hkey : validateKey key with
  | error e =>
    rw [withValidKey_of_invalid hkey, withValidKey_of_invalid hkey]
    rfl
  | ok =>
    rw [withValidKey_of_valid hkey, withValidKey_of_valid hkey, h]
    rfl

theorem withValidKey_snd_of_valid (h : validateKey key = .ok ()) (s : σ) (f : α × σ) (r : α → β) :
    ((withValidKey key s f).map (·.map r) id).2 = f.2 := by
  rw [withValidKey_of_valid h]
  rfl

theorem withValidKey_snd_of_invalid {e : CacheError} (h : validateKey key = .error e) (s : σ)
    (f : α × σ) (r : α → β) : ((withValidKey key s f).map (·.map r) id).2 = s := by
  rw [withValidKey_of_invalid h]
  rfl

end

/-- The timed store has what the bounded one has, save for what has lapsed. -/
structure InStep (now : Nat) (operations : List Operation) (map : String → Option Parsed)
    (t : TimedCache) (b : BoundedCache) : Prop where
  holds : t.Holds now none map
  lapsed : ∀ key, Lapsed now key operations → map key = none ∧ key ∈ b.entries.keys
  same : ∀ key, ¬Lapsed now key operations → map key = b.entries.get? key

namespace InStep

theorem empty (now capacity : Nat) :
    InStep now [] (fun _ => none) { now } (.ofCapacity capacity) where
  holds := TimedCache.holds_empty now none
  lapsed _ h := absurd h not_since_nil
  same _ _ := rfl

variable {now capacity : Nat} {operations : List Operation} {uses : List String}
  {map : String → Option Parsed} {t : TimedCache} {b : BoundedCache}
  (h : InStep now operations map t b)
include h

/-- Nothing happens but that the bounded store may note a use. -/
theorem keep {operation : Operation} {b' : BoundedCache}
    (hlapses : ∀ key, ¬operation.Lapses now key)
    (hleaves : ∀ key ∈ b.entries.keys, operation.Leaves key)
    (hget : ∀ key, b'.entries.get? key = b.entries.get? key) :
    InStep now (operations ++ [operation]) map t b' where
  holds := h.holds
  lapsed key hlapsed := by
    have hbefore := (lapsed_concat.mp hlapsed).resolve_left (hlapses key)
    obtain ⟨hnone, hmem⟩ := h.lapsed key hbefore.2
    rw [← Dict.isSome_get?, hget, Dict.isSome_get?]
    exact ⟨hnone, hmem⟩
  same key hlapsed := by
    rw [hget]
    refine h.same key fun hbefore => hlapsed ?_
    exact lapsed_concat.mpr (.inr ⟨hleaves key (h.lapsed key hbefore).2, hbefore⟩)

theorem lapses_iff {item : CacheItem} {value : Parsed} (hkey : validateKey item.key = .ok ())
    (hvalue : item.value = some value) :
    (Operation.save item).Lapses now item.key ↔ t.lifetimeOf item = some 0 := by
  have hown : (item.expiry <|> none) = item.expiry := by cases item.expiry <;> rfl
  rw [← t.isExpired_iff_lifetimeOf, h.holds.lifetime, Option.map_none, hown, TimedCache.isExpired,
    h.holds.now]
  simp [Operation.Lapses, hkey, hvalue]

theorem save {item : CacheItem} {value : Parsed} (hkey : validateKey item.key = .ok ())
    (hvalue : item.value = some value)
    (huse : (b.use item.key value).entries = (item.key, value) :: b.entries.erase item.key) :
    InStep now (operations ++ [.save item])
      ((TimedCache.Change.put item.key value (t.lifetimeOf item)).apply map)
      (t.store item).2 (b.use item.key value) where
  holds := h.holds.store item hkey hvalue
  lapsed key hlapsed := by
    by_cases hsame : key = item.key
    · subst hsame
      have hlapses := (lapsed_concat.mp hlapsed).resolve_right fun hbefore =>
        hbefore.1.2 value ⟨rfl, hvalue⟩
      rw [BoundedCache.keys_use, TimedCache.Change.apply, Function.update_self,
        if_pos ((h.lapses_iff hkey hvalue).mp hlapses)]
      exact ⟨rfl, List.mem_cons_self⟩
    · have hbefore := (lapsed_concat.mp hlapsed).resolve_left fun hlapses => hsame hlapses.1.symm
      obtain ⟨hnone, hmem⟩ := h.lapsed key hbefore.2
      rw [TimedCache.Change.apply, Function.update_of_ne hsame, huse, ← Dict.isSome_get?,
        Dict.get?, if_neg (Ne.symm hsame), Dict.get?_erase_of_ne _ hsame, Dict.isSome_get?]
      exact ⟨hnone, hmem⟩
  same key hlapsed := by
    rw [huse, TimedCache.Change.apply, Dict.get?]
    by_cases hsame : key = item.key
    · subst hsame
      have hlasts : ¬t.lifetimeOf item = some 0 := fun hlifetime =>
        hlapsed (lapsed_concat.mpr (.inl ((h.lapses_iff hkey hvalue).mpr hlifetime)))
      rw [Function.update_self, if_neg hlasts, if_pos rfl]
    · rw [Function.update_of_ne hsame, if_neg (Ne.symm hsame), Dict.get?_erase_of_ne _ hsame]
      exact h.same key (not_lapsed_concat (Operation.leaves_of_ne rfl hsame) hlapsed)

theorem delete (hnodup : b.entries.keys.Nodup) (key : String) :
    InStep now (operations ++ [.delete key]) (Function.update map key none)
      { t with entries := t.entries.erase key } { b with entries := b.entries.erase key } where
  holds := h.holds.erase key
  lapsed other hlapsed := by
    obtain ⟨hleaves, hbefore⟩ := (lapsed_concat.mp hlapsed).resolve_left id
    have hother : other ≠ key := Ne.symm hleaves.1
    obtain ⟨hnone, hmem⟩ := h.lapsed other hbefore
    rw [Function.update_of_ne hother, Dict.keys_erase]
    exact ⟨hnone, (List.mem_erase_of_ne hother).mpr hmem⟩
  same other hlapsed := by
    by_cases hother : other = key
    · rw [hother, Function.update_self, Dict.get?_erase_self hnodup]
    · rw [Function.update_of_ne hother, Dict.get?_erase_of_ne _ hother]
      exact h.same other (not_lapsed_concat (Operation.leaves_of_ne rfl hother) hlapsed)

theorem clear : InStep now (operations ++ [.clear]) (fun _ => none) { t with entries := [] }
    { b with entries := [] } where
  holds := h.holds.clear
  lapsed _ hlapsed := absurd trivial ((lapsed_concat.mp hlapsed).resolve_left id).1.1
  same _ _ := rfl

theorem perform (hb : BoundedCache.Remembers capacity operations uses b) (operation : Operation)
    (hroom : ∀ key, operation.key? = some key → key ∈ b.entries.keys ∨ b.size < capacity) :
    ∃ map', InStep now (operations ++ [operation]) map' (Cache.perform t operation).2
      (Cache.perform b operation).2 := by
  have heffect := b.effect operation
  generalize Cache.perform b operation = result at heffect ⊢
  cases heffect with
  | @rejects _ key e hkey hinvalid =>
    have hstate : (Cache.perform t operation).2 = t := by
      cases operation <;> cases hkey <;> exact withValidKey_snd_of_invalid hinvalid t _ _
    rw [hstate]
    refine ⟨map, h.keep (fun other hlapses => ?_) (fun other hmem => ?_) fun _ => rfl⟩
    · obtain ⟨hother, hvalid⟩ := hlapses.key?_eq
      obtain rfl := Option.some.inj (hkey.symm.trans hother)
      cases hvalid.symm.trans hinvalid
    · refine Operation.leaves_of_ne hkey fun heq => ?_
      cases (heq ▸ hb.valid other hmem).symm.trans hinvalid
  | @finds key value hkey hget =>
    rw [Cache.perform, h.holds.lookup_eq, withValidKey_snd_of_valid hkey]
    have hmem : key ∈ b.entries.keys := Dict.isSome_get?.mp (Option.isSome_of_eq_some hget)
    refine ⟨map, h.keep (fun _ => id) (fun _ _ => ⟨id, fun _ => id⟩) fun other => ?_⟩
    rw [hb.entries_use_of_room value (.inl hmem), Dict.get?]
    split
    · rw [← ‹key = other›, hget]
    · exact Dict.get?_erase_of_ne _ (Ne.symm ‹_›)
  | misses hkey =>
    rw [Cache.perform, h.holds.lookup_eq, withValidKey_snd_of_valid hkey]
    exact ⟨map, h.keep (fun _ => id) (fun _ _ => ⟨id, fun _ => id⟩) fun _ => rfl⟩
  | tells hkey =>
    rw [Cache.perform, h.holds.has_eq, withValidKey_snd_of_valid hkey]
    exact ⟨map, h.keep (fun _ => id) (fun _ _ => ⟨id, fun _ => id⟩) fun _ => rfl⟩
  | @stores item value hkey hvalue =>
    have hstate : (Cache.perform t (.save item)).2 = (t.store item).2 :=
      withValidKey_snd_of_valid hkey t (t.store item) Reply.flag
    rw [hstate]
    exact ⟨_, h.save hkey hvalue (hb.entries_use_of_room value (hroom item.key rfl))⟩
  | @refuses item hkey hvalue =>
    have hstate : (Cache.perform t (.save item)).2 = (t.store item).2 :=
      withValidKey_snd_of_valid hkey t (t.store item) Reply.flag
    rw [hstate, TimedCache.store, hvalue]
    have hleaves (key : String) : Operation.Leaves key (.save item) :=
      ⟨id, fun value hsaves => Option.some_ne_none value (hsaves.2.symm.trans hvalue)⟩
    refine ⟨map, h.keep (fun other hlapses => ?_) (fun key _ => hleaves key) fun _ => rfl⟩
    simp [Operation.Lapses, hvalue] at hlapses
  | @deletes key hkey =>
    have hstate : (Cache.perform t (.delete key)).2 = { t with entries := t.entries.erase key } :=
      withValidKey_snd_of_valid hkey t (true, { t with entries := t.entries.erase key }) Reply.flag
    rw [hstate]
    exact ⟨_, h.delete hb.nodup key⟩
  | clears => exact ⟨_, h.clear⟩

/-- A reply depends on the entry only where the operation asks for it. -/
theorem reply_eq {operation : Operation}
    (hasks : ∀ key, operation.Asks key → ¬Lapsed now key operations) :
    (Cache.perform t operation).1 = (Cache.perform b operation).1 := by
  cases operation with
  | lookup key =>
    rw [Cache.perform, h.holds.lookup_eq, h.same key (hasks key rfl)]
    refine withValidKey_fst_congr ?_ Reply.item
    rw [BoundedCache.find]
    cases b.entries.get? key <;> rfl
  | save item =>
    refine withValidKey_fst_congr ?_ Reply.flag
    rw [TimedCache.store, BoundedCache.store]
    cases item.value with
    | none => rfl
    | some value =>
      dsimp only
      split <;> rfl
  | has key =>
    rw [Cache.perform, h.holds.has_eq, h.same key (hasks key rfl)]
    refine withValidKey_fst_congr ?_ Reply.flag
    rfl
  | delete key =>
    refine withValidKey_fst_congr ?_ Reply.flag
    rfl
  | clear => rfl

theorem mem_keys_iff {key : String} :
    key ∈ t.entries.keys ↔ key ∈ b.entries.keys ∧ ¬Lapsed now key operations := by
  rw [← h.holds.isSome_iff]
  by_cases hlapsed : Lapsed now key operations
  · simp [(h.lapsed key hlapsed).1, hlapsed]
  · rw [h.same key hlapsed, Dict.isSome_get?]
    simp [hlapsed]

/-- What has lapsed makes the difference in size. -/
theorem size_eq (hnodup : b.entries.keys.Nodup) :
    ∃ lapsed : Finset String, (∀ key, key ∈ lapsed ↔ Lapsed now key operations) ∧
      b.size = t.size + lapsed.card := by
  classical
  have hfilter : t.entries.keys.toFinset =
      b.entries.keys.toFinset.filter fun key => ¬Lapsed now key operations := by
    ext key
    rw [List.mem_toFinset, Finset.mem_filter, List.mem_toFinset, h.mem_keys_iff]
  have ht : t.size = t.entries.keys.toFinset.card := by
    rw [List.toFinset_card_of_nodup h.holds.nodup]
    exact (List.length_map _).symm
  have hb : b.size = b.entries.keys.toFinset.card := by
    rw [List.toFinset_card_of_nodup hnodup, b.length_keys]
  refine ⟨b.entries.keys.toFinset.filter fun key => Lapsed now key operations, fun key => ?_, ?_⟩
  · rw [Finset.mem_filter, List.mem_toFinset]
    exact ⟨And.right, fun hlapsed => ⟨(h.lapsed key hlapsed).2, hlapsed⟩⟩
  · rw [ht, hb, hfilter, Nat.add_comm, Finset.card_filter_add_card_filter_not]

end InStep

theorem mem_keysOf {operations : List Operation} {operation : Operation} {key : String}
    (hmem : operation ∈ operations) (hkey : operation.key? = some key) : key ∈ keysOf operations :=
  List.mem_toFinset.mpr (List.mem_filterMap.mpr ⟨operation, hmem, hkey⟩)

theorem keysOf_concat_of_key? {operations : List Operation} {operation : Operation} {key : String}
    (hkey : operation.key? = some key) :
    keysOf (operations ++ [operation]) = insert key (keysOf operations) := by
  simp [keysOf, hkey]

theorem card_keysOf_le_concat (operations : List Operation) (operation : Operation) :
    (keysOf operations).card ≤ (keysOf (operations ++ [operation])).card := by
  refine Finset.card_le_card fun key hmem => ?_
  rw [keysOf, List.filterMap_append, List.toFinset_append]
  exact Finset.mem_union_left _ hmem

/-- What is held was saved. -/
theorem keys_subset_keysOf {capacity : Nat} {operations : List Operation} {uses : List String}
    {b : BoundedCache} (hb : BoundedCache.Remembers capacity operations uses b) :
    b.entries.keys.toFinset ⊆ keysOf operations := by
  intro key hmem
  rw [List.mem_toFinset, ← Dict.isSome_get?, Option.isSome_iff_exists] at hmem
  obtain ⟨value, hget⟩ := hmem
  obtain ⟨before, operation, rest, rfl, hsaves, -⟩ := hb.latest key value hget
  have hmem : operation ∈ before ++ operation :: rest := by simp
  refine mem_keysOf hmem ?_
  cases operation with
  | save item => exact congrArg some hsaves.1
  | lookup | has | delete | clear => exact hsaves.elim

theorem inStep_after (now : Nat) {capacity : Nat} {operations : List Operation}
    (hkeys : (keysOf operations).card ≤ capacity) :
    ∃ map, InStep now operations map (after ({ now } : TimedCache) operations)
      (after (BoundedCache.ofCapacity capacity) operations) := by
  induction operations using List.reverseRecOn with
  | nil => exact ⟨_, .empty now capacity⟩
  | append_singleton operations operation ih =>
    obtain ⟨map, h⟩ := ih ((card_keysOf_le_concat operations operation).trans hkeys)
    have hb := BoundedCache.remembers_after capacity operations
    rw [after_concat, after_concat]
    refine h.perform hb operation fun key hkey => ?_
    by_contra hroom
    obtain ⟨hnew, hfull⟩ := not_or.mp hroom
    -- Then there would be one key too many.
    let held := (after (BoundedCache.ofCapacity capacity) operations).entries.keys.toFinset
    have hcard : (insert key held).card ≤ capacity := by
      refine (Finset.card_le_card ?_).trans hkeys
      rw [keysOf_concat_of_key? hkey]
      exact Finset.insert_subset_insert key (keys_subset_keysOf hb)
    rw [Finset.card_insert_of_notMem (mt List.mem_toFinset.mp hnew),
      List.toFinset_card_of_nodup hb.nodup, BoundedCache.length_keys] at hcard
    omega

/-- As long as there is room for all keys, a bounded store and a timed one without a lifetime give the
same replies to everything but a look at an entry that has lapsed, which only the bounded one still has.
Where no time of an item has come when it is saved, they are the same throughout. -/
theorem perform_eq_of_not_lapsed (now capacity : Nat) (operations : List Operation)
    (hkeys : (keysOf operations).card ≤ capacity) :
    let t := after ({ now } : TimedCache) operations
    let b := after (BoundedCache.ofCapacity capacity) operations
    (∀ operation : Operation, (∀ key, operation.Asks key → ¬Lapsed now key operations) →
      (perform t operation).1 = (perform b operation).1) ∧
    (∃ lapsed : Finset String, (∀ key, key ∈ lapsed ↔ Lapsed now key operations) ∧
      b.size = t.size + lapsed.card) ∧
    (∀ key, Lapsed now key operations → (Cache.lookup t key).1 = .ok { key } ∧
      ∃ value, (Cache.lookup b key).1 = .ok (.hit key value) ∧
        Since (·.Saves key value) (Operation.Leaves key) operations) ∧
    ((∀ operation ∈ operations, ∀ key, ¬operation.Lapses now key) →
      (∀ operation, (perform t operation).1 = (perform b operation).1) ∧ t.size = b.size) := by
  intro t b
  obtain ⟨map, h⟩ := inStep_after now hkeys
  have hb := BoundedCache.remembers_after capacity operations
  obtain ⟨lapsed, hlapsed, hsize⟩ := h.size_eq hb.nodup
  refine ⟨fun _ => h.reply_eq, ⟨lapsed, hlapsed, hsize⟩, fun key hkey => ?_, fun hlasts => ?_⟩
  · obtain ⟨hnone, hmem⟩ := h.lapsed key hkey
    obtain ⟨value, hget⟩ := Option.isSome_iff_exists.mp (Dict.isSome_get?.mpr hmem)
    have hfind : Cache.lookup b key = withValidKey key b (b.find key) := rfl
    rw [h.holds.lookup_eq, hfind, withValidKey_of_valid (hb.valid key hmem),
      withValidKey_of_valid (hb.valid key hmem), hnone, BoundedCache.find, hget]
    exact ⟨rfl, value, rfl, hb.latest key value hget⟩
  · have hnever (key : String) : ¬Lapsed now key operations := by
      rintro ⟨before, operation, rest, heq, hlapses, -⟩
      exact hlasts operation (by simp [heq]) key hlapses
    refine ⟨fun _ => h.reply_eq fun key _ => hnever key, ?_⟩
    have hempty : lapsed = ∅ :=
      Finset.eq_empty_of_forall_notMem fun key hmem => hnever key ((hlapsed key).mp hmem)
    rw [hsize, hempty, Finset.card_empty, Nat.add_zero]

/-- At time 5, a save for no time and one for an hour. -/
def timedOperations : List Operation :=
  [.save ((BoundedCache.saving "a" 0).expiringAt 5),
    .save ((BoundedCache.saving "b" 1).expiringAt 3600005)]

theorem perform_eq_of_not_lapsed_sample :
    let t := after ({ now := 5 } : TimedCache) timedOperations
    let b := after (BoundedCache.ofCapacity 2) timedOperations
    (keysOf timedOperations).card ≤ 2 ∧ Lapsed 5 "a" timedOperations ∧ ¬Lapsed 5 "b" timedOperations ∧
    (perform t (.lookup "b")).1 = (perform b (.lookup "b")).1 ∧
    (Cache.lookup t "a").1 = .ok { key := "a" } ∧ b.size = 2 ∧ t.size = 1 ∧
    ∃ lapsed : Finset String, (∀ key, key ∈ lapsed ↔ Lapsed 5 key timedOperations) ∧
      2 = 1 + lapsed.card := by
  intro t b
  have hkeys : (keysOf timedOperations).card ≤ 2 := by decide
  have ha : Lapsed 5 "a" timedOperations := by
    refine ⟨[], _, _, rfl, ⟨rfl, by cbv, rfl, rfl⟩, ?_⟩
    rw [List.forall_mem_singleton]
    exact Operation.leaves_of_ne rfl (by decide)
  have hb : ¬Lapsed 5 "b" timedOperations := by
    rw [timedOperations, ← List.singleton_append, lapsed_concat]
    rintro (hlapses | ⟨hleaves, -⟩)
    · exact absurd hlapses.2.2.2 (by decide)
    · exact hleaves.2 _ ⟨rfl, rfl⟩
  obtain ⟨hreply, hsize, hlapsed, -⟩ := perform_eq_of_not_lapsed 5 2 timedOperations hkeys
  have hbsize : b.size = 2 := by cbv
  have htsize : t.size = 1 := by cbv
  rw [hbsize, htsize] at hsize
  refine ⟨hkeys, ha, hb, hreply _ ?_, (hlapsed "a" ha).1, hbsize, htsize, hsize⟩
  rintro key rfl
  exact hb

/-- A bounded store keeps what was saved for no time. -/
theorem size_ne_of_lapsed :
    let operations : List Operation := [.save ((BoundedCache.saving "a" 0).expiringAt 5)]
    let t := after ({ now := 5 } : TimedCache) operations
    let b := after (BoundedCache.ofCapacity 1) operations
    (keysOf operations).card ≤ 1 ∧ t.size = 0 ∧ b.size = 1 ∧
      (perform t (.has "a")).1 = .ok (.flag false) ∧ (perform b (.has "a")).1 = .ok (.flag true) := by
  refine ⟨by decide, by cbv, by cbv, by cbv, by cbv⟩

end Cache
end Formula
