import Mathlib
import Formula.Proofs.Cache.History
import Formula.Proofs.Cache.Session

/-! Which entries a bounded store holds. Its keys stand in the order of their last use, and a new key
drives out the one whose last use lies furthest back. -/

namespace Formula

/-- The other keys that were used after the last use of a key. -/
def usedSince (key : String) (uses : List String) : Finset String :=
  (uses.reverse.takeWhile (· ≠ key)).toFinset

/-- Keys in the order of their last use, the latest first. -/
def recency (uses : List String) : List String :=
  uses.foldl (fun latest key => key :: latest.erase key) []

section

variable {uses : List String} {key other : String}

theorem recency_concat (uses : List String) (key : String) :
    recency (uses ++ [key]) = key :: (recency uses).erase key := by
  rw [recency, List.foldl_append]
  rfl

theorem nodup_recency (uses : List String) : (recency uses).Nodup := by
  induction uses using List.reverseRecOn with
  | nil => exact List.nodup_nil
  | append_singleton uses key ih =>
    rw [recency_concat, List.nodup_cons]
    exact ⟨ih.not_mem_erase, ih.erase key⟩

theorem mem_recency : key ∈ recency uses ↔ key ∈ uses := by
  induction uses using List.reverseRecOn with
  | nil => rfl
  | append_singleton uses last ih =>
    rw [recency_concat, List.mem_cons, List.mem_append, List.mem_singleton, ← ih]
    by_cases h : key = last
    · simp [h]
    · simp [h, List.mem_erase_of_ne h]

theorem takeWhile_erase_of_ne (latest : List String) (h : other ≠ key) :
    (latest.erase other).takeWhile (· ≠ key) = (latest.takeWhile (· ≠ key)).erase other := by
  induction latest with
  | nil => rfl
  | cons first latest ih =>
    by_cases hfirst : first = other
    · subst hfirst
      simp [h]
    · by_cases hkey : first = key
      · simp [hkey, Ne.symm h]
      · simpa [hfirst, hkey] using ih

/-- The keys used since stand in front of the key. -/
theorem usedSince_eq (key : String) (uses : List String) :
    usedSince key uses = ((recency uses).takeWhile (· ≠ key)).toFinset := by
  induction uses using List.reverseRecOn with
  | nil => rfl
  | append_singleton uses last ih =>
    rw [recency_concat]
    by_cases h : last = key
    · simp [usedSince, h]
    · have hlater : usedSince key (uses ++ [last]) = insert last (usedSince key uses) := by
        simp [usedSince, h]
      have hfront : (last :: (recency uses).erase last).takeWhile (· ≠ key) =
          last :: ((recency uses).takeWhile (· ≠ key)).erase last := by
        rw [List.takeWhile_cons_of_pos (by simpa using h), takeWhile_erase_of_ne _ h]
      rw [hlater, hfront, ih]
      ext other
      by_cases hother : other = last
      · simp [hother]
      · simp only [List.toFinset_cons, Finset.mem_insert, List.mem_toFinset,
          List.mem_erase_of_ne hother]

theorem card_usedSince (key : String) (uses : List String) :
    (usedSince key uses).card = ((recency uses).takeWhile (· ≠ key)).length := by
  rw [usedSince_eq]
  exact List.toFinset_card_of_nodup ((nodup_recency uses).sublist (List.takeWhile_sublist _))

theorem mem_take_iff {latest : List String} (h : key ∈ latest) (n : Nat) :
    key ∈ latest.take n ↔ (latest.takeWhile (· ≠ key)).length < n := by
  induction latest generalizing n with
  | nil => cases h
  | cons first latest ih =>
    cases n with
    | zero => simp
    | succ n =>
      by_cases hfirst : first = key
      · simp [hfirst]
      · have hmem := (List.mem_cons.mp h).resolve_left (Ne.symm hfirst)
        simp [hfirst, Ne.symm hfirst, ih hmem]

theorem mem_takeWhile_of_sublist {latest kept : List String} (hnodup : latest.Nodup)
    (h : (kept ++ [key]).Sublist latest) (hother : other ∈ kept) :
    other ∈ latest.takeWhile (· ≠ key) := by
  induction latest generalizing kept with
  | nil => simp at h
  | cons first latest ih =>
    rw [List.nodup_cons] at hnodup
    have hfirst : key ∈ latest → (first :: latest).takeWhile (· ≠ key) =
        first :: latest.takeWhile (· ≠ key) := by
      intro hmem
      have hne : first ≠ key := fun heq => hnodup.1 (heq ▸ hmem)
      exact List.takeWhile_cons_of_pos (by simpa using hne)
    cases kept with
    | nil => cases hother
    | cons newest kept =>
      rw [List.cons_append, List.cons_sublist_cons'] at h
      have hkey : key ∈ newest :: (kept ++ [key]) := by simp
      rcases h with h | ⟨rfl, h⟩
      · rw [hfirst (h.subset hkey)]
        exact List.mem_cons_of_mem _ (ih hnodup.2 h hother)
      · rw [hfirst (h.subset (by simp))]
        rcases List.mem_cons.mp hother with rfl | hother
        · exact List.mem_cons_self
        · exact List.mem_cons_of_mem _ (ih hnodup.2 h hother)

theorem mem_usedSince_of_sublist {kept : List String}
    (h : (kept ++ [key]).Sublist (recency uses)) (hother : other ∈ kept) :
    other ∈ usedSince key uses := by
  rw [usedSince_eq, List.mem_toFinset]
  exact mem_takeWhile_of_sublist (nodup_recency uses) h hother

theorem take_erase_take (latest : List String) (key : String) (n : Nat) :
    ((latest.take (n + 1)).erase key).take n = (latest.erase key).take n := by
  induction latest generalizing n with
  | nil => rfl
  | cons first latest ih =>
    by_cases hfirst : first = key
    · simp [hfirst]
    · cases n with
      | zero => rfl
      | succ n => simp [hfirst, ih]

end

theorem Dict.get?_of_get?_take {α : Type} {d : Dict α} {n : Nat} {key : String} {value : α}
    (h : Dict.get? (d.take n) key = some value) : d.get? key = some value := by
  induction d generalizing n with
  | nil => rwa [List.take_nil] at h
  | cons entry d ih =>
    obtain ⟨k, v⟩ := entry
    cases n with
    | zero => cases h
    | succ n =>
      rw [List.take_succ_cons] at h
      by_cases hk : k = key
      · simpa only [get?, if_pos hk] using h
      · simp only [get?, if_neg hk] at h ⊢
        exact ih h

namespace BoundedCache

open Cache (Operation Reply Keeps)

section

variable {c : BoundedCache} {key other : String} {value v : Parsed}

theorem get?_of_get?_use (h : (c.use key value).entries.get? other = some v) :
    other = key ∧ v = value ∨ other ≠ key ∧ c.entries.get? other = some v := by
  have hentries : (c.use key value).entries =
      (key, value) :: (c.entries.erase key).take (c.capacity - 1) := rfl
  rw [hentries, Dict.get?] at h
  split at h
  · exact .inl ⟨Eq.symm ‹_›, (Option.some.inj h).symm⟩
  · have hne : other ≠ key := Ne.symm ‹_›
    rw [← Dict.get?_erase_of_ne _ hne]
    exact .inr ⟨hne, Dict.get?_of_get?_take h⟩

end

/-- The entries of a store after operations, given the keys that they used. -/
structure Remembers (capacity : Nat) (operations : List Operation) (uses : List String)
    (c : BoundedCache) : Prop where
  capacity_eq : c.capacity = capacity
  size_le : c.size ≤ capacity
  valid : ∀ key ∈ c.entries.keys, validateKey key = .ok ()
  sublist : c.entries.keys.Sublist (recency uses)
  latest : ∀ key value, c.entries.get? key = some value →
    Since (·.Saves key value) (Operation.Leaves key) operations

namespace Remembers

variable {capacity : Nat} {operations : List Operation} {uses : List String} {c : BoundedCache}

theorem nodup (h : Remembers capacity operations uses c) : c.entries.keys.Nodup :=
  (nodup_recency uses).sublist h.sublist

theorem empty {capacity : Nat} : Remembers capacity [] [] { capacity } where
  capacity_eq := rfl
  size_le := Nat.zero_le _
  valid := nofun
  sublist := List.Sublist.refl _
  latest := nofun

variable (h : Remembers capacity operations uses c) {operation : Operation}
include h

theorem latest_concat {key : String} {value : Parsed} (hleaves : operation.Leaves key)
    (hget : c.entries.get? key = some value) :
    Since (·.Saves key value) (Operation.Leaves key) (operations ++ [operation]) :=
  since_concat.mpr (.inr ⟨hleaves, h.latest key value hget⟩)

theorem keep (hleaves : ∀ key ∈ c.entries.keys, operation.Leaves key) :
    Remembers capacity (operations ++ [operation]) uses c where
  capacity_eq := h.capacity_eq
  size_le := h.size_le
  valid := h.valid
  sublist := h.sublist
  latest key _ hget :=
    h.latest_concat (hleaves key (Dict.isSome_get?.mp (Option.isSome_of_eq_some hget))) hget

theorem use (hpos : 0 < capacity) {key : String} {value : Parsed} (hkey : validateKey key = .ok ())
    (hlatest : Since (·.Saves key value) (Operation.Leaves key) (operations ++ [operation]))
    (hothers : ∀ other, other ≠ key → operation.Leaves other) :
    Remembers capacity (operations ++ [operation]) (uses ++ [key]) (c.use key value) where
  capacity_eq := h.capacity_eq
  size_le := by
    have htake := List.length_take_le (c.capacity - 1) (c.entries.keys.erase key)
    have hcapacity := h.capacity_eq
    rw [← length_keys, keys_use, List.length_cons]
    omega
  valid other hmem := by
    rw [keys_use, List.mem_cons] at hmem
    rcases hmem with rfl | hmem
    · exact hkey
    · exact h.valid other (List.mem_of_mem_erase (List.mem_of_mem_take hmem))
  sublist := by
    rw [keys_use, recency_concat]
    exact ((List.take_sublist _ _).trans (h.sublist.erase key)).cons_cons key
  latest other v hget := by
    rcases get?_of_get?_use hget with ⟨rfl, rfl⟩ | ⟨hne, hget⟩
    · exact hlatest
    · exact h.latest_concat (hothers other hne) hget

theorem erase {key : String} :
    Remembers capacity (operations ++ [.delete key]) uses
      { c with entries := c.entries.erase key } where
  capacity_eq := h.capacity_eq
  size_le := by
    rw [← length_keys, Dict.keys_erase]
    exact (List.length_erase_le).trans (c.length_keys.trans_le h.size_le)
  valid other hmem := by
    rw [Dict.keys_erase] at hmem
    exact h.valid other (List.mem_of_mem_erase hmem)
  sublist := by
    rw [Dict.keys_erase]
    exact List.erase_sublist.trans h.sublist
  latest other v hget := by
    by_cases hother : other = key
    · rw [hother, Dict.get?_erase_self h.nodup] at hget
      cases hget
    · rw [Dict.get?_erase_of_ne _ hother] at hget
      exact h.latest_concat (Operation.leaves_of_ne rfl hother) hget

theorem step (hpos : 0 < capacity) (operation : Operation) :
    Remembers capacity (operations ++ [operation])
      (uses ++ (operation.used? (Cache.perform c operation).1).toList)
      (Cache.perform c operation).2 := by
  have heffect := c.effect operation
  generalize Cache.perform c operation = result at heffect ⊢
  cases heffect with
  | @rejects _ key e hkey hinvalid =>
    rw [Operation.used?_error, Option.toList_none, List.append_nil]
    refine h.keep fun other hmem => Operation.leaves_of_ne hkey fun heq => ?_
    rw [← heq, h.valid other hmem] at hinvalid
    cases hinvalid
  | finds hkey hget =>
    exact h.use hpos hkey (h.latest_concat ⟨id, fun _ => id⟩ hget) fun _ _ => ⟨id, fun _ => id⟩
  | misses | tells =>
    show Remembers _ _ (uses ++ []) _
    rw [List.append_nil]
    exact h.keep fun _ _ => ⟨id, fun _ => id⟩
  | stores hkey hvalue =>
    rw [Operation.used?_save, hvalue]
    exact h.use hpos hkey (since_concat.mpr (.inl ⟨rfl, hvalue⟩)) fun _ => Operation.leaves_of_ne rfl
  | refuses hkey hvalue =>
    rw [Operation.used?_save, hvalue, Option.map_none, Option.toList_none, List.append_nil]
    exact h.keep fun _ _ => ⟨id, fun _ hsaves => nomatch hvalue.symm.trans hsaves.2⟩
  | deletes hkey =>
    show Remembers _ _ (uses ++ []) _
    rw [List.append_nil]
    exact h.erase
  | clears =>
    show Remembers _ _ (uses ++ []) _
    rw [List.append_nil]
    exact
      { capacity_eq := h.capacity_eq, size_le := Nat.zero_le _, valid := nofun
        sublist := List.nil_sublist _, latest := nofun }

theorem keeps_iff {key : String} : Keeps c key ↔ key ∈ c.entries.keys := by
  have hhas : Cache.has c key = withValidKey key c ((c.entries.get? key).isSome, c) := rfl
  rw [Keeps, hhas, ← Dict.isSome_get?]
  cases hkey : validateKey key with
  | error e =>
    rw [withValidKey_of_invalid hkey]
    refine iff_of_false nofun fun hmem => ?_
    rw [h.valid key (Dict.isSome_get?.mp hmem)] at hkey
    cases hkey
  | ok =>
    rw [withValidKey_of_valid hkey]
    simp

end Remembers

theorem remembers_after (capacity : Nat) (operations : List Operation) :
    Remembers (max capacity 1) operations (Cache.uses (ofCapacity capacity) operations)
      (Cache.after (ofCapacity capacity) operations) := by
  induction operations using List.reverseRecOn with
  | nil => exact .empty
  | append_singleton operations operation ih =>
    rw [Cache.uses_concat, Cache.after_concat]
    exact ih.step (Nat.lt_of_lt_of_le Nat.zero_lt_one (Nat.le_max_right _ _)) operation

theorem keys_perform {c : BoundedCache} {uses : List String} {n : Nat}
    (hcapacity : c.capacity = n + 1)
    (hkeys : c.entries.keys = (recency uses).take (n + 1)) {operation : Operation}
    (hdrops : ∀ key, ¬operation.Drops key) :
    (Cache.perform c operation).2.entries.keys =
      (recency (uses ++ (operation.used? (Cache.perform c operation).1).toList)).take (n + 1) := by
  have huse (key : String) (value : Parsed) : (c.use key value).entries.keys =
      (recency (uses ++ [key])).take (n + 1) := by
    rw [keys_use, recency_concat, hcapacity, hkeys, Nat.add_sub_cancel, take_erase_take,
      List.take_succ_cons]
  have heffect := c.effect operation
  generalize Cache.perform c operation = result at heffect ⊢
  cases heffect with
  | rejects => rw [Operation.used?_error, Option.toList_none, List.append_nil, hkeys]
  | finds => exact huse _ _
  | misses | tells =>
    show _ = (recency (uses ++ [])).take (n + 1)
    rw [List.append_nil, hkeys]
  | stores _ hvalue =>
    rw [Operation.used?_save, hvalue]
    exact huse _ _
  | refuses _ hvalue =>
    rw [Operation.used?_save, hvalue, Option.map_none, Option.toList_none, List.append_nil, hkeys]
  | deletes => exact absurd rfl (hdrops _)
  | clears => exact absurd trivial (hdrops "")

/-- Without drops the keys that were used last are held, as many as there is room for. -/
theorem keys_after (capacity : Nat) {operations : List Operation}
    (hdrops : ∀ operation ∈ operations, ∀ key, ¬operation.Drops key) :
    (Cache.after (ofCapacity capacity) operations).entries.keys =
      (recency (Cache.uses (ofCapacity capacity) operations)).take (max capacity 1) := by
  obtain ⟨n, hn⟩ : ∃ n, max capacity 1 = n + 1 := Nat.exists_eq_add_of_le' (Nat.le_max_right _ _)
  induction operations using List.reverseRecOn with
  | nil => exact List.take_nil.symm
  | append_singleton operations operation ih =>
    rw [List.forall_mem_append, List.forall_mem_singleton] at hdrops
    have hcapacity := (remembers_after capacity operations).capacity_eq
    rw [Cache.uses_concat, Cache.after_concat, hn]
    rw [hn] at ih hcapacity
    exact keys_perform hcapacity (ih hdrops.1) hdrops.2

/-- A key that was saved has been used. -/
theorem mem_uses_of_mem {c : BoundedCache} {operations : List Operation} {item : CacheItem}
    (hsave : .save item ∈ operations) (hvalue : item.value.isSome = true)
    (hkey : validateKey item.key = .ok ()) : item.key ∈ Cache.uses c operations := by
  induction operations generalizing c with
  | nil => cases hsave
  | cons first operations ih =>
    rw [Cache.uses, List.mem_append]
    rcases List.mem_cons.mp hsave with rfl | hsave
    · have heffect := c.effect (.save item)
      generalize Cache.perform c (.save item) = result at heffect ⊢
      cases heffect with
      | rejects hsame hinvalid =>
        rw [← Option.some.inj hsame, hkey] at hinvalid
        cases hinvalid
      | stores _ hsome =>
        rw [Operation.used?_save, hsome]
        exact .inl (List.mem_singleton_self _)
      | refuses _ hnone => simp [hnone] at hvalue
    · exact .inr (ih hsave)

namespace Remembers

variable {capacity : Nat} {operations : List Operation} {uses : List String} {c : BoundedCache}
  {key other : String} {value : Parsed} (h : Remembers capacity operations uses c)
include h

theorem entries_use_of_room (value : Parsed) (hroom : key ∈ c.entries.keys ∨ c.size < capacity) :
    (c.use key value).entries = (key, value) :: c.entries.erase key :=
  BoundedCache.entries_use_of_room value (h.capacity_eq.symm ▸ hroom) (h.capacity_eq.symm ▸ h.size_le)

theorem exists_keys : ∃ keys : Finset String, (∀ key, key ∈ keys ↔ Keeps c key) ∧
    c.size = keys.card ∧ keys.card ≤ capacity := by
  have hcard : c.size = c.entries.keys.toFinset.card := by
    rw [List.toFinset_card_of_nodup h.nodup, c.length_keys]
  refine ⟨c.entries.keys.toFinset, fun key => ?_, hcard, hcard ▸ h.size_le⟩
  rw [List.mem_toFinset, h.keeps_iff]

/-- What is driven out makes room for a new key, and all else that is held was used later. -/
theorem of_evicted (hpos : 0 < capacity) (hother : other ≠ key) (hheld : other ∈ c.entries.keys)
    (hgone : other ∉ (c.use key value).entries.keys) :
    key ∉ c.entries.keys ∧ c.size = capacity ∧
      ∀ k ∈ c.entries.keys, k ≠ other → k ∈ usedSince other uses := by
  by_cases hroom : key ∈ c.entries.keys ∨ c.size < capacity
  · have hkeys : (c.use key value).entries.keys = key :: (c.entries.erase key).keys :=
      congrArg Dict.keys (h.entries_use_of_room value hroom)
    rw [hkeys, Dict.keys_erase] at hgone
    exact absurd (List.mem_cons_of_mem _ ((List.mem_erase_of_ne hother).mpr hheld)) hgone
  · obtain ⟨hnew, hsize⟩ := not_or.mp hroom
    have hfull : c.size = capacity := Nat.le_antisymm h.size_le (Nat.not_lt.mp hsize)
    obtain ⟨kept, evicted, hkeys, huse⟩ := keys_use_of_full value hnew
      (hfull.trans h.capacity_eq.symm) (h.capacity_eq.symm ▸ hpos)
    have hsublist := h.sublist
    rw [hkeys] at hheld hsublist
    rw [huse, List.mem_cons, not_or] at hgone
    obtain rfl : other = evicted :=
      List.mem_singleton.mp ((List.mem_append.mp hheld).resolve_left hgone.2)
    refine ⟨hnew, hfull, fun k hk hne => mem_usedSince_of_sublist hsublist ?_⟩
    rw [hkeys] at hk
    exact (List.mem_append.mp hk).resolve_right (mt List.mem_singleton.mp hne)

/-- A new key drives one key out of a full store. -/
theorem existsUnique_evicted (hpos : 0 < capacity) (hnew : key ∉ c.entries.keys)
    (hfull : c.size = capacity) :
    ∃! other, other ∈ c.entries.keys ∧ other ∉ (c.use key value).entries.keys := by
  obtain ⟨kept, evicted, hkeys, huse⟩ := keys_use_of_full value hnew
    (hfull.trans h.capacity_eq.symm) (h.capacity_eq.symm ▸ hpos)
  have hnodup := h.nodup
  rw [hkeys] at hnew hnodup
  rw [hkeys, huse]
  refine ⟨evicted, ⟨by simp, ?_⟩, fun other hother => ?_⟩
  · rw [List.mem_cons, not_or]
    refine ⟨fun heq => hnew (by simp [heq]), fun hmem => ?_⟩
    exact List.disjoint_of_nodup_append hnodup hmem (List.mem_singleton_self evicted)
  · have hkept : other ∉ kept := fun hmem => hother.2 (List.mem_cons_of_mem _ hmem)
    exact List.mem_singleton.mp ((List.mem_append.mp hother.1).resolve_left hkept)

theorem of_lookup {item : CacheItem} (hlookup : (Cache.lookup c key).1 = .ok item) :
    (item.isHit = true ↔ Keeps c key) ∧
    (item.isHit = true → ∃ value, item.value = some value ∧
      Since (·.Saves key value) (Operation.Leaves key) operations) := by
  have heffect := c.effect (.lookup key)
  have hreply : (Cache.perform c (.lookup key)).1 = .ok (.item item) :=
    congrArg (Except.map Reply.item) hlookup
  generalize Cache.perform c (.lookup key) = result at heffect hreply
  rw [h.keeps_iff, ← Dict.isSome_get?]
  cases heffect with
  | rejects => cases hreply
  | @finds _ value _ hget =>
    cases hreply
    exact ⟨by simp [hget, CacheItem.hit], fun _ => ⟨value, rfl, h.latest key value hget⟩⟩
  | misses _ hget =>
    cases hreply
    exact ⟨by simp [hget], fun hhit => absurd hhit Bool.false_ne_true⟩

end Remembers

/-- Whatever is done to an empty store, it holds no more than it has room for. A save drives something
out only to make room for a new key, and then that one key whose last use lies furthest back. What a
look-up finds is the value that was saved last. As long as nothing is dropped, a key that was saved is
held until as many others have been used as there is room for. -/
theorem keeps_latestUsed (capacity : Nat) (operations : List Operation) :
    let c := Cache.after (ofCapacity capacity) operations
    let uses := Cache.uses (ofCapacity capacity) operations
    (∃ keys : Finset String, (∀ key, key ∈ keys ↔ Keeps c key) ∧ c.size = keys.card ∧
      keys.card ≤ max capacity 1) ∧
    (∀ item : CacheItem, let c' := (Cache.perform c (.save item)).2
      (∀ key, key ≠ item.key → Keeps c key → ¬Keeps c' key →
        item.value.isSome = true ∧ ¬Keeps c item.key ∧ Keeps c' item.key ∧
        c.size = max capacity 1 ∧
        ∀ other, Keeps c other → other ≠ key → other ∈ usedSince key uses) ∧
      (validateKey item.key = .ok () → item.value.isSome = true → ¬Keeps c item.key →
        c.size = max capacity 1 → ∃! key, Keeps c key ∧ ¬Keeps c' key)) ∧
    (∀ key item, (Cache.lookup c key).1 = .ok item →
      (item.isHit = true ↔ Keeps c key) ∧
      (item.isHit = true → ∃ value, item.value = some value ∧
        Since (·.Saves key value) (Operation.Leaves key) operations)) ∧
    ((∀ operation ∈ operations, ∀ key, ¬operation.Drops key) →
      ∀ item, .save item ∈ operations → item.value.isSome = true → validateKey item.key = .ok () →
        (Keeps c item.key ↔ (usedSince item.key uses).card < max capacity 1)) := by
  intro c uses
  have hpos : 0 < max capacity 1 := Nat.lt_of_lt_of_le Nat.zero_lt_one (Nat.le_max_right _ _)
  have h : Remembers (max capacity 1) operations uses c := remembers_after capacity operations
  refine ⟨h.exists_keys, fun item => ?_, fun key item => h.of_lookup,
    fun hdrops item hsave hvalue hkey => ?_⟩
  · have hkept (key : String) : Keeps (Cache.perform c (.save item)).2 key ↔ _ :=
      (h.step hpos (.save item)).keeps_iff
    simp only [hkept, h.keeps_iff]
    rcases c.save_cases item with ⟨hnone, hsame⟩ | ⟨value, hvalue, huse⟩
    · rw [hsame]
      exact ⟨fun key _ hheld hgone => absurd hheld hgone,
        fun hkey hvalue => absurd ⟨hkey, hvalue⟩ hnone⟩
    · rw [huse]
      refine ⟨fun key hne hheld hgone => ?_, fun _ _ => h.existsUnique_evicted hpos⟩
      obtain ⟨hnew, hfull, holdest⟩ := h.of_evicted hpos hne hheld hgone
      refine ⟨Option.isSome_of_eq_some hvalue, hnew, ?_, hfull, holdest⟩
      rw [keys_use]
      exact List.mem_cons_self
  · have hmem := mem_uses_of_mem (c := ofCapacity capacity) hsave hvalue hkey
    rw [h.keeps_iff, keys_after capacity hdrops, mem_take_iff (mem_recency.mpr hmem), card_usedSince]

def saving (key : String) (stamp : Nat) : CacheItem :=
  { key, value := some ⟨"1", .literal (.int 1), stamp⟩ }

/-- A look-up keeps `a` in place of `b`. -/
def sampleOperations : List Operation :=
  [.save (saving "a" 0), .save (saving "b" 1), .has "b", .lookup "a", .save { key := "b" }]

theorem keeps_latestUsed_sample :
    let c := Cache.after (ofCapacity 2) sampleOperations
    let c' := (Cache.perform c (.save (saving "c" 2))).2
    let uses := Cache.uses (ofCapacity 2) (sampleOperations ++ [.save (saving "c" 2)])
    (Keeps c "b" ∧ ¬Keeps c' "b" ∧ ∀ other, Keeps c other → other ≠ "b" →
      other ∈ usedSince "b" (Cache.uses (ofCapacity 2) sampleOperations)) ∧
    (validateKey "c" = .ok () ∧ ¬Keeps c "c" ∧ c.size = 2 ∧ ∃! key, Keeps c key ∧ ¬Keeps c' key) ∧
    ((Cache.lookup c "a").1 = .ok (.hit "a" ⟨"1", .literal (.int 1), 0⟩) ∧ Keeps c "a" ∧
      Since (Operation.Saves "a" ⟨"1", .literal (.int 1), 0⟩) (Operation.Leaves "a") sampleOperations) ∧
    (∀ operation ∈ sampleOperations ++ [.save (saving "c" 2)], ∀ key, ¬operation.Drops key) ∧
    (Keeps c' "b" ↔ (usedSince "b" uses).card < 2) := by
  intro c c' uses
  have hb : Keeps c "b" := by cbv
  have hb' : ¬Keeps c' "b" := by
    have hhas : (Cache.has c' "b").1 = .ok false := by cbv
    rw [Keeps, hhas]
    simp
  have hc : ¬Keeps c "c" := by
    have hhas : (Cache.has c "c").1 = .ok false := by cbv
    rw [Keeps, hhas]
    simp
  have hkey : validateKey "c" = .ok () := by cbv
  have hfull : c.size = 2 := by cbv
  have hfound : (Cache.lookup c "a").1 = .ok (.hit "a" ⟨"1", .literal (.int 1), 0⟩) := by cbv
  have hdrops : ∀ operation ∈ sampleOperations ++ [.save (saving "c" 2)], ∀ key,
      ¬operation.Drops key := by
    simp [sampleOperations, Operation.Drops]
  obtain ⟨-, hsave, hlookup, -⟩ := keeps_latestUsed 2 sampleOperations
  obtain ⟨-, -, -, hheld⟩ := keeps_latestUsed 2 (sampleOperations ++ [.save (saving "c" 2)])
  obtain ⟨-, -, -, -, holdest⟩ := (hsave (saving "c" 2)).1 "b" (by decide) hb hb'
  have hnew := (hsave (saving "c" 2)).2 hkey rfl hc hfull
  obtain ⟨hiff, hlatest⟩ := hlookup "a" _ hfound
  obtain ⟨value, hvalue, hsince⟩ := hlatest rfl
  obtain rfl := Option.some.inj hvalue
  have hcount := hheld hdrops (saving "b" 1) (by simp [sampleOperations]) rfl (by cbv)
  rw [Cache.after_concat] at hcount
  exact ⟨⟨hb, hb', holdest⟩, ⟨hkey, hc, hfull, hnew⟩, ⟨hfound, hiff.mp rfl, hsince⟩, hdrops, hcount⟩

end BoundedCache
end Formula
