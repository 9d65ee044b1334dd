import Mathlib
import Formula.Dict

/-! Maps into which entries are put one after another. A key stands where it was put first, and has the
value that was put last. -/

namespace Formula
namespace Dict

variable {α : Type}

def putAll (d : Dict α) (entries : List (String × α)) : Dict α :=
  entries.foldl (fun d (key, value) => d.put key value) d

theorem ofList_eq_putAll (entries : List (String × α)) : ofList entries = putAll [] entries := rfl

theorem putAll_cons (d : Dict α) (entry : String × α) (entries : List (String × α)) :
    d.putAll (entry :: entries) = (d.put entry.1 entry.2).putAll entries := rfl

theorem putAll_append (d : Dict α) (entries entries' : List (String × α)) :
    d.putAll (entries ++ entries') = (d.putAll entries).putAll entries' := List.foldl_append

theorem nodup_keys_put {d : Dict α} (h : d.keys.Nodup) (key : String) (value : α) :
    (d.put key value).keys.Nodup := by
  rw [keys_put]
  split
  · exact h
  · rename_i hkey
    rw [← List.concat_eq_append]
    exact h.concat hkey

theorem nodup_keys_putAll {d : Dict α} (h : d.keys.Nodup) (entries : List (String × α)) :
    (d.putAll entries).keys.Nodup := by
  induction entries generalizing d with
  | nil => exact h
  | cons entry entries ih => exact ih (nodup_keys_put h entry.1 entry.2)

/-- New keys come behind those that are there, in the order in which they first appear. -/
theorem keys_putAll (d : Dict α) (entries : List (String × α)) : (d.putAll entries).keys =
    d.keys ++ ((keys entries).filter (· ∉ d.keys)).eraseDups := by
  induction entries generalizing d with
  | nil => exact (List.append_nil _).symm
  | cons entry entries ih =>
    obtain ⟨key, value⟩ := entry
    have hkeys : keys ((key, value) :: entries) = key :: keys entries := rfl
    rw [putAll_cons, ih, keys_put, hkeys]
    by_cases hkey : key ∈ d.keys
    · rw [if_pos hkey, List.filter_cons_of_neg (by simpa using hkey)]
    · have hothers : (keys entries).filter (· ∉ d.keys ++ [key]) =
          ((keys entries).filter (· ∉ d.keys)).filter fun other => !other == key := by
        rw [List.filter_filter]
        refine List.filter_congr fun other _ => Bool.eq_iff_iff.mpr ?_
        simp [and_comm]
      rw [if_neg hkey, List.filter_cons_of_pos (by simpa using hkey), List.eraseDups_cons, hothers,
        List.append_assoc, List.singleton_append]

theorem nodup_keys_ofList (entries : List (String × α)) : (ofList entries).keys.Nodup := by
  have hnone : (keys ([] : Dict α)).Nodup := List.nodup_nil
  exact nodup_keys_putAll hnone entries

theorem keys_ofList (entries : List (String × α)) :
    (ofList entries).keys = (keys entries).eraseDups := by
  rw [ofList_eq_putAll, keys_putAll]
  simp [keys]

theorem get?_append (d d' : Dict α) (key : String) :
    get? (d ++ d') key = (d.get? key).or (d'.get? key) := by
  induction d with
  | nil => rfl
  | cons entry d ih =>
    obtain ⟨k, v⟩ := entry
    by_cases hk : k = key
    · simp [get?, hk]
    · simpa [get?, hk] using ih

theorem get?_eq_some_iff {d : Dict α} {key : String} {value : α} : d.get? key = some value ↔
    ∃ before after, d = before ++ (key, value) :: after ∧ key ∉ keys before := by
  constructor
  · intro h
    induction d with
    | nil => cases h
    | cons entry d ih =>
      obtain ⟨k, v⟩ := entry
      by_cases hk : k = key
      · obtain rfl : v = value := by simpa [get?, hk] using h
        exact ⟨[], d, by rw [hk, List.nil_append], List.not_mem_nil⟩
      · obtain ⟨before, after, rfl, hbefore⟩ := ih (by simpa [get?, hk] using h)
        refine ⟨(k, v) :: before, after, rfl, ?_⟩
        simpa [keys, Ne.symm hk] using hbefore
  · rintro ⟨before, after, rfl, hbefore⟩
    have hnone : get? before key = none :=
      Option.not_isSome_iff_eq_none.mp (mt isSome_get?.mp hbefore)
    rw [get?_append, hnone, Option.none_or]
    exact if_pos rfl

theorem get?_putAll (d : Dict α) (entries : List (String × α)) (key : String) :
    (d.putAll entries).get? key = (get? entries.reverse key).or (d.get? key) := by
  induction entries generalizing d with
  | nil => rfl
  | cons entry entries ih =>
    obtain ⟨k, v⟩ := entry
    rw [putAll_cons, ih, List.reverse_cons, get?_append, Option.or_assoc]
    congr 1
    by_cases hk : key = k
    · rw [hk, get?_put_self]
      simp [get?]
    · rw [get?_put_of_ne _ _ hk]
      simp [get?, Ne.symm hk]

theorem get?_putAll_of_last {d : Dict α} {before after : List (String × α)} {key : String} {value : α}
    (h : key ∉ keys after) : (d.putAll (before ++ (key, value) :: after)).get? key = some value := by
  have hlast : get? (before ++ (key, value) :: after).reverse key = some value := by
    refine get?_eq_some_iff.mpr ⟨after.reverse, before.reverse, by simp, ?_⟩
    rwa [keys, List.map_reverse, List.mem_reverse]
  rw [get?_putAll, hlast, Option.some_or]

theorem get?_putAll_of_notMem (d : Dict α) {entries : List (String × α)} {key : String}
    (h : key ∉ keys entries) : (d.putAll entries).get? key = d.get? key := by
  have hnone : get? entries.reverse key = none := by
    rw [← Option.not_isSome_iff_eq_none, isSome_get?, keys, List.map_reverse, List.mem_reverse]
    exact h
  rw [get?_putAll, hnone, Option.none_or]

theorem get?_ofList_eq_some_iff {entries : List (String × α)} {key : String} {value : α} :
    (ofList entries).get? key = some value ↔
      ∃ before after, entries = before ++ (key, value) :: after ∧ key ∉ keys after := by
  rw [ofList_eq_putAll]
  constructor
  · intro h
    rw [get?_putAll, get?, Option.or_none, get?_eq_some_iff] at h
    obtain ⟨before, after, heq, hbefore⟩ := h
    refine ⟨after.reverse, before.reverse, ?_, ?_⟩
    · rw [← List.reverse_reverse entries, heq]
      simp
    · rwa [keys, List.map_reverse, List.mem_reverse]
  · rintro ⟨before, after, rfl, hafter⟩
    exact get?_putAll_of_last hafter

end Dict
end Formula
