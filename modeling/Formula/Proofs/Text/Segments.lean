import Mathlib
import Formula.Text.Segments

/-! Splitting a text at a character is the inverse of joining parts without it. -/

namespace Formula.Text

variable {separator : Char} {part : List Char}

theorem segments_of_notMem (h : separator ∉ part) : segments separator part = [part] := by
  induction part with
  | nil => rfl
  | cons c cs ih =>
    simp only [List.mem_cons, not_or] at h
    rw [segments, if_neg (by simpa using Ne.symm h.1), ih h.2]

theorem segments_append_cons (h : separator ∉ part) (cs : List Char) :
    segments separator (part ++ separator :: cs) = part :: segments separator cs := by
  induction part with
  | nil => simp [segments]
  | cons c part ih =>
    simp only [List.mem_cons, not_or] at h
    rw [List.cons_append, segments, if_neg (by simpa using Ne.symm h.1), ih h.2]

theorem segments_intercalate {parts : List (List Char)} (hne : parts ≠ [])
    (h : ∀ part ∈ parts, separator ∉ part) :
    segments separator ([separator].intercalate parts) = parts := by
  induction parts with
  | nil => exact absurd rfl hne
  | cons part parts ih =>
    rw [List.forall_mem_cons] at h
    cases parts with
    | nil => rw [List.intercalate_singleton, segments_of_notMem h.1]
    | cons next parts =>
      rw [List.intercalate_cons_cons, List.append_assoc, List.singleton_append,
        segments_append_cons h.1, ih (by simp) h.2]

theorem intercalate_segments (separator : Char) (cs : List Char) :
    [separator].intercalate (segments separator cs) = cs := by
  induction cs with
  | nil => rfl
  | cons c cs ih =>
    rw [segments]
    split
    · rename_i hseparator
      obtain ⟨part, parts, hparts⟩ := List.exists_cons_of_ne_nil (segments_ne_nil separator cs)
      rw [hparts] at ih ⊢
      rw [List.intercalate_cons_cons, ih, beq_iff_eq.mp hseparator]
      rfl
    · cases hparts : segments separator cs with
      | nil => exact absurd hparts (segments_ne_nil separator cs)
      | cons part parts =>
        rw [hparts] at ih
        cases parts with
        | nil => simpa using ih
        | cons next parts =>
          simp only [List.intercalate_cons_cons, List.append_assoc, List.cons_append] at ih ⊢
          rw [ih]

theorem mem_segments {separator c : Char} {cs : List Char} (h : c ∈ cs) :
    c = separator ∨ ∃ part ∈ segments separator cs, c ∈ part := by
  induction cs with
  | nil => exact absurd h List.not_mem_nil
  | cons c' cs ih =>
    rw [segments]
    by_cases hseparator : c' = separator
    · rw [if_pos (beq_iff_eq.mpr hseparator)]
      rcases List.mem_cons.mp h with rfl | h
      · exact .inl hseparator
      · obtain hc | ⟨part, hpart, hc⟩ := ih h
        · exact .inl hc
        · exact .inr ⟨part, List.mem_cons_of_mem [] hpart, hc⟩
    · rw [if_neg (by simpa using hseparator)]
      cases hparts : segments separator cs with
      | nil => exact absurd hparts (segments_ne_nil separator cs)
      | cons part parts =>
        rcases List.mem_cons.mp h with rfl | h
        · exact .inr ⟨c :: part, List.mem_cons_self, List.mem_cons_self⟩
        · rw [hparts] at ih
          obtain hc | ⟨part', hpart', hc⟩ := ih h
          · exact .inl hc
          · rcases List.mem_cons.mp hpart' with rfl | hpart'
            · exact .inr ⟨c' :: part', List.mem_cons_self, List.mem_cons_of_mem c' hc⟩
            · exact .inr ⟨part', List.mem_cons_of_mem _ hpart', hc⟩

end Formula.Text
