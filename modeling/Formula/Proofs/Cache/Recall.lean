import Formula.Cache.Bounded
import Formula.Cache.Timed

/-! What a language may rely on in a store: it answers with something that was saved, or with
nothing. Both stores of the library keep to that. -/

namespace Formula

theorem withValidKey_of_valid {σ α : Type} {key : String} (h : validateKey key = .ok ()) (s : σ)
    (f : α × σ) : withValidKey key s f = (.ok f.1, f.2) := by
  rw [withValidKey, h]

theorem withValidKey_of_invalid {σ α : Type} {key : String} {e : CacheError}
    (h : validateKey key = .error e) (s : σ) (f : α × σ) : withValidKey key s f = (.error e, s) := by
  rw [withValidKey, h]

namespace Cache

variable {σ : Type} [Cache σ]

/-- The states that look-ups and saves bring a store to, with what was saved on the way. -/
inductive Reaches (start : σ) : List (String × Parsed) → σ → Prop
  | start : Reaches start [] start
  | lookup {saved s} (key : String) : Reaches start saved s →
      Reaches start saved (Cache.lookup s key).2
  | save {saved s} (item : CacheItem) {p : Parsed} : item.value = some p → Reaches start saved s →
      Reaches start ((item.key, p) :: saved) (Cache.save s item).2

/-- What a store holds was saved, if a look-up leaves it at most what it held before, and a save adds
its item at most. -/
theorem Reaches.mem_saved {P : σ → String × Parsed → Prop} {start s : σ}
    {saved : List (String × Parsed)} (h : Reaches start saved s) (hstart : ∀ entry, ¬P start entry)
    (hlookup : ∀ s key entry, P (Cache.lookup s key).2 entry → P s entry)
    (hsave : ∀ s item p entry, item.value = some p → P (Cache.save s item).2 entry →
      entry = (item.key, p) ∨ P s entry) : ∀ entry, P s entry → entry ∈ saved := by
  induction h with
  | start => exact fun entry hentry => absurd hentry (hstart entry)
  | lookup key _ ih => exact fun entry hentry => ih entry (hlookup _ key entry hentry)
  | save item hp _ ih =>
    intro entry hentry
    rcases hsave _ item _ entry hp hentry with rfl | hheld
    · exact List.mem_cons_self
    · exact List.mem_cons_of_mem _ (ih entry hheld)

/-- A look-up of a valid key does not fail, and what it finds was saved under that key. It may find
nothing at any time, whether or not a save was refused, drove something out or expired. -/
def Recalls (start : σ) : Prop :=
  ∀ saved s key, Reaches start saved s → validateKey key = .ok () →
    ∃ item, (Cache.lookup s key).1 = .ok item ∧ item.key = key ∧
      ∀ p, item.value = some p → (key, p) ∈ saved

/-- A look-up of a valid key does not fail and finds nothing. -/
def Forgets (start : σ) : Prop :=
  ∀ saved s key, Reaches start saved s → validateKey key = .ok () →
    ∃ item, (Cache.lookup s key).1 = .ok item ∧ item.value = none

end Cache

namespace Dict

theorem mem_erase {α : Type} {d : Dict α} {key : String} {entry : String × α}
    (h : entry ∈ d.erase key) : entry ∈ d := by
  induction d with
  | nil => exact h
  | cons first rest ih =>
    obtain ⟨k, v⟩ := first
    by_cases hk : k = key
    · simp only [erase, if_pos hk] at h
      exact List.mem_cons_of_mem _ h
    · simp only [erase, if_neg hk, List.mem_cons] at h
      exact h.elim (fun heq => heq ▸ List.mem_cons_self) fun h => List.mem_cons_of_mem _ (ih h)

theorem mem_put {α : Type} {d : Dict α} {key : String} {value : α} {entry : String × α}
    (h : entry ∈ d.put key value) : entry = (key, value) ∨ entry ∈ d := by
  induction d with
  | nil => exact .inl (List.mem_singleton.mp h)
  | cons first rest ih =>
    obtain ⟨k, v⟩ := first
    by_cases hk : k = key
    · simp only [put, if_pos hk, List.mem_cons] at h
      exact h.imp (fun heq => by rw [heq, hk]) (List.mem_cons_of_mem _)
    · simp only [put, if_neg hk, List.mem_cons] at h
      rcases h with rfl | h
      · exact .inr List.mem_cons_self
      · exact (ih h).imp id (List.mem_cons_of_mem _)

end Dict

namespace BoundedCache

theorem mem_use {c : BoundedCache} {key : String} {value : Parsed} {entry : String × Parsed}
    (h : entry ∈ (c.use key value).entries) : entry = (key, value) ∨ entry ∈ c.entries :=
  (List.mem_cons.mp h).imp id fun h => Dict.mem_erase (List.mem_of_mem_take h)

theorem entries_lookup {c : BoundedCache} {key : String} {entry : String × Parsed}
    (h : entry ∈ (Cache.lookup c key).2.entries) : entry ∈ c.entries := by
  change entry ∈ (withValidKey key c (c.find key)).2.entries at h
  unfold withValidKey find at h
  split at h
  · split at h
    · rcases mem_use h with rfl | h
      · exact Dict.mem_of_get? ‹_›
      · exact h
    · exact h
  · exact h

theorem entries_save {c : BoundedCache} {item : CacheItem} {p : Parsed} (hp : item.value = some p)
    {entry : String × Parsed} (h : entry ∈ (Cache.save c item).2.entries) :
    entry = (item.key, p) ∨ entry ∈ c.entries := by
  change entry ∈ (withValidKey item.key c (c.store item)).2.entries at h
  unfold withValidKey store at h
  rw [hp] at h
  split at h
  · exact mem_use h
  · exact .inr h

/-- The entries of a bounded store were saved. -/
theorem mem_saved {start c : BoundedCache} {saved : List (String × Parsed)}
    (hstart : start.entries = []) (h : Cache.Reaches start saved c) :
    ∀ entry ∈ c.entries, entry ∈ saved :=
  h.mem_saved (P := fun c entry => entry ∈ c.entries) (by simp [hstart])
    (fun _ _ _ => entries_lookup) fun _ _ _ _ hp => entries_save hp

theorem recalls {start : BoundedCache} (hstart : start.entries = []) : Cache.Recalls start := by
  intro saved c key hreaches hkey
  refine ⟨(c.find key).1, ?_, ?_, fun p hp => mem_saved hstart hreaches (key, p) ?_⟩
  · exact congrArg Prod.fst (withValidKey_of_valid hkey c (c.find key))
  · unfold find
    split <;> rfl
  · unfold find at hp
    split at hp
    · obtain rfl := Option.some.inj hp
      exact Dict.mem_of_get? ‹_›
    · exact absurd hp (by simp)

end BoundedCache

namespace TimedCache

theorem entries_live {c : TimedCache} {key : String} {entry : String × Parsed × Option Nat}
    (h : entry ∈ (c.live key).2.entries) : entry ∈ c.entries := by
  unfold live at h
  split at h
  · exact h
  · split at h
    · exact Dict.mem_erase h
    · exact h

theorem entries_lookup {c : TimedCache} {key : String} {entry : String × Parsed × Option Nat}
    (h : entry ∈ (Cache.lookup c key).2.entries) : entry ∈ c.entries := by
  change entry ∈ (withValidKey key c (itemFor key (c.live key).1, (c.live key).2)).2.entries at h
  unfold withValidKey at h
  split at h
  · exact entries_live h
  · exact h

theorem entries_save {c : TimedCache} {item : CacheItem} {p : Parsed} (hp : item.value = some p)
    {entry : String × Parsed × Option Nat} (h : entry ∈ (Cache.save c item).2.entries) :
    (entry.1, entry.2.1) = (item.key, p) ∨ entry ∈ c.entries := by
  change entry ∈ (withValidKey item.key c (c.store item)).2.entries at h
  unfold withValidKey store at h
  rw [hp] at h
  split at h
  · dsimp only at h
    split at h
    · exact .inr (Dict.mem_erase h)
    · exact (Dict.mem_put h).imp (fun heq => by rw [heq]) id
  · exact .inr h

/-- The entries of a timed store were saved. -/
theorem mem_saved {start c : TimedCache} {saved : List (String × Parsed)}
    (hstart : start.entries = []) (h : Cache.Reaches start saved c) :
    ∀ entry ∈ c.entries, (entry.1, entry.2.1) ∈ saved := by
  have hsaved := h.mem_saved (P := fun c pair => ∃ entry ∈ c.entries, (entry.1, entry.2.1) = pair)
    (by simp [hstart]) ?_ ?_
  · exact fun entry hmem => hsaved _ ⟨entry, hmem, rfl⟩
  · rintro s key _ ⟨entry, hmem, rfl⟩
    exact ⟨entry, entries_lookup hmem, rfl⟩
  · rintro s item p _ hp ⟨entry, hmem, rfl⟩
    exact (entries_save hp hmem).imp id fun hmem => ⟨entry, hmem, rfl⟩

theorem recalls {start : TimedCache} (hstart : start.entries = []) : Cache.Recalls start := by
  intro saved c key hreaches hkey
  refine ⟨itemFor key (c.live key).1, ?_, ?_, fun p hp => ?_⟩
  · exact congrArg Prod.fst
      (withValidKey_of_valid hkey c (itemFor key (c.live key).1, (c.live key).2))
  · cases (c.live key).1 <;> rfl
  · have hlive : (c.live key).1 = some p := by
      cases hfound : (c.live key).1 with
      | none => simp [hfound, itemFor] at hp
      | some value => simpa [hfound, itemFor, CacheItem.hit] using hp
    unfold live at hlive
    split at hlive
    · exact absurd hlive (by simp)
    · split at hlive
      · exact absurd hlive (by simp)
      · obtain rfl := Option.some.inj hlive
        exact mem_saved hstart hreaches _ (Dict.mem_of_get? ‹_›)

end TimedCache

/-- A store that keeps nothing. -/
structure EmptyCache where

namespace EmptyCache

instance : Cache EmptyCache where
  lookup c key := withValidKey key c ({ key }, c)
  save c item := withValidKey item.key c (false, c)
  has c key := withValidKey key c (false, c)
  delete c key := withValidKey key c (true, c)
  clear c := (true, c)

theorem forgets (start : EmptyCache) : Cache.Forgets start :=
  fun _ c key _ hkey =>
    ⟨{ key }, congrArg Prod.fst (withValidKey_of_valid hkey c (({ key } : CacheItem), c)), rfl⟩

end EmptyCache
end Formula
