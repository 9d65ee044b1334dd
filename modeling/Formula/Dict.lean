/-! Maps that keep the order in which their keys were first put: a later value for a key takes the
place of the earlier one. -/

namespace Formula

/-- Entries in order; every map built by `put` has each key once. -/
abbrev Dict (α : Type) := List (String × α)

namespace Dict

variable {α : Type}

def get? : Dict α → String → Option α
  | [], _ => none
  | (k, v) :: rest, key => if k = key then some v else get? rest key

def keys (d : Dict α) : List String := d.map Prod.fst

def put : Dict α → String → α → Dict α
  | [], key, value => [(key, value)]
  | (k, v) :: rest, key, value =>
    if k = key then (k, value) :: rest else (k, v) :: put rest key value

def ofList (entries : List (String × α)) : Dict α :=
  entries.foldl (fun d (key, value) => d.put key value) []

def erase : Dict α → String → Dict α
  | [], _ => []
  | (k, v) :: rest, key => if k = key then rest else (k, v) :: erase rest key

theorem isSome_get? {d : Dict α} {key : String} : (d.get? key).isSome = true ↔ key ∈ d.keys := by
  induction d with
  | nil => simp [keys, get?]
  | cons entry rest ih =>
    obtain ⟨k, v⟩ := entry
    by_cases hk : k = key
    · simp [keys, get?, hk]
    · simpa [keys, get?, hk, Ne.symm hk] using ih

theorem mem_of_get? {d : Dict α} {key : String} {value : α} (h : d.get? key = some value) :
    (key, value) ∈ d := by
  induction d with
  | nil => cases h
  | cons entry rest ih =>
    obtain ⟨k, v⟩ := entry
    by_cases hk : k = key
    · simp only [get?, if_pos hk, Option.some.injEq] at h
      rw [hk, h]
      exact List.mem_cons_self
    · simp only [get?, if_neg hk] at h
      exact List.mem_cons_of_mem _ (ih h)

/-- Where each key stands once, every entry is found. -/
theorem get?_of_mem {d : Dict α} (h : d.keys.Nodup) {key : String} {value : α}
    (hmem : (key, value) ∈ d) : d.get? key = some value := by
  induction d with
  | nil => cases hmem
  | cons entry rest ih =>
    obtain ⟨k, v⟩ := entry
    obtain ⟨hfirst, hrest⟩ := List.nodup_cons.mp h
    rcases List.mem_cons.mp hmem with heq | hmem
    · obtain ⟨rfl, rfl⟩ := Prod.mk.inj heq
      exact if_pos rfl
    · have hne : k ≠ key := by
        rintro rfl
        exact hfirst (List.mem_map.mpr ⟨_, hmem, rfl⟩)
      rw [get?, if_neg hne]
      exact ih hrest hmem

theorem keys_put (d : Dict α) (key : String) (value : α) :
    (d.put key value).keys = if key ∈ d.keys then d.keys else d.keys ++ [key] := by
  induction d with
  | nil => rfl
  | cons entry rest ih =>
    obtain ⟨k, v⟩ := entry
    simp only [put, keys, List.map_cons, List.mem_cons] at ih ⊢
    by_cases h : k = key
    · simp [h]
    · by_cases hm : key ∈ rest.map Prod.fst <;> simp [h, Ne.symm h, hm, ih]

theorem get?_put_self (d : Dict α) (key : String) (value : α) :
    (d.put key value).get? key = some value := by
  induction d with
  | nil => simp [put, get?]
  | cons entry rest ih =>
    obtain ⟨k, v⟩ := entry
    by_cases h : k = key
    · simp [put, get?, h]
    · simpa only [put, get?, if_neg h] using ih

theorem get?_put_of_ne (d : Dict α) {key other : String} (value : α) (h : other ≠ key) :
    (d.put key value).get? other = d.get? other := by
  induction d with
  | nil => simp [put, get?, Ne.symm h]
  | cons entry rest ih =>
    obtain ⟨k, v⟩ := entry
    by_cases hk : k = key
    · subst hk
      simp [put, get?, Ne.symm h]
    · simp only [put, if_neg hk, get?, ih]

theorem keys_erase (d : Dict α) (key : String) : (d.erase key).keys = d.keys.erase key := by
  induction d with
  | nil => rfl
  | cons entry rest ih =>
    obtain ⟨k, v⟩ := entry
    simp only [keys, List.map_cons] at ih ⊢
    by_cases hk : k = key
    · simp [erase, hk]
    · simp [erase, hk, ih]

theorem get?_erase_of_ne (d : Dict α) {key other : String} (h : other ≠ key) :
    (d.erase key).get? other = d.get? other := by
  induction d with
  | nil => rfl
  | cons entry rest ih =>
    obtain ⟨k, v⟩ := entry
    by_cases hk : k = key
    · subst hk
      simp [erase, get?, Ne.symm h]
    · simp only [erase, if_neg hk, get?, ih]

/-- Where each key stands once, an erased key is gone. -/
theorem get?_erase_self {d : Dict α} (h : d.keys.Nodup) (key : String) :
    (d.erase key).get? key = none := by
  rw [← Option.not_isSome_iff_eq_none, isSome_get?, keys_erase, h.mem_erase_iff]
  exact fun hmem => hmem.1 rfl

end Dict
end Formula
