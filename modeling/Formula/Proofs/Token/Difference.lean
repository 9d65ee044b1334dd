import Mathlib
import Formula.Proofs.Value.Equality
import Formula.Token.Difference

/-! The differences of two token streams are told completely. Tokens match by the loose equality of their
values and are told apart by the strict one, so that there is something to tell of all that do not match. -/

namespace Formula

namespace Token

variable {a b : Token}

theorem differences_eq_nil_iff : a.differences b = [] ↔ a.matching b = true := by
  by_cases hmatching : a.matching b = true
  · simp [differences, hmatching]
  · refine iff_of_false (fun hnil => hmatching ?_) hmatching
    simp only [differences, if_neg hmatching, List.append_eq_nil_iff, ite_eq_left_iff, reduceCtorEq,
      imp_false, not_not] at hnil
    obtain ⟨⟨hvalue, hcursor⟩, hkind⟩ := hnil
    rw [matching, hkind, hcursor, Value.looseEq_of_strictEq hvalue]
    rfl

theorem matching_comm (ha : a.value.HasUniqueKeys) (hb : b.value.HasUniqueKeys) :
    a.matching b = b.matching a := by
  rw [matching, matching, Value.isEquality_looseEq.comm ha hb, Bool.beq_comm (a := a.kind),
    Bool.beq_comm (a := a.cursor)]

end Token

/-- Only one of the lists has a token at the place, or the tokens there do not match. -/
def DifferAt (as bs : List Token) (i : Nat) : Prop :=
  match as[i]?, bs[i]? with
  | some a, some b => a.matching b = false
  | none, none => False
  | _, _ => True

section Lists

variable {place i : Nat} {a b : Token} {as bs : List Token}

theorem differAt_nil_left : DifferAt [] bs i ↔ i < bs.length := by
  by_cases hi : i < bs.length <;> simp [DifferAt, hi]

theorem differAt_nil_right : DifferAt as [] i ↔ i < as.length := by
  by_cases hi : i < as.length <;> simp [DifferAt, hi]

theorem differAt_cons_zero : DifferAt (a :: as) (b :: bs) 0 ↔ a.matching b = false := Iff.rfl

theorem differAt_cons_succ : DifferAt (a :: as) (b :: bs) (i + 1) ↔ DifferAt as bs i := Iff.rfl

theorem matchingTokens_iff : matchingTokens as bs = true ↔ ∀ i, ¬DifferAt as bs i := by
  induction as generalizing bs with
  | nil =>
    cases bs with
    | nil => simp [matchingTokens, differAt_nil_left]
    | cons b bs => exact iff_of_false nofun fun h => h 0 trivial
  | cons a as ih =>
    cases bs with
    | nil => exact iff_of_false nofun fun h => h 0 trivial
    | cons b bs =>
      rw [matchingTokens, Bool.and_eq_true, ih]
      constructor
      · rintro ⟨hfirst, hrest⟩ (- | i)
        · simp [differAt_cons_zero, hfirst]
        · exact hrest i
      · exact fun h => ⟨Bool.eq_true_of_not_eq_false (h 0), fun i => h (i + 1)⟩

theorem matchingTokens_comm (has : ∀ t ∈ as, t.value.HasUniqueKeys)
    (hbs : ∀ t ∈ bs, t.value.HasUniqueKeys) : matchingTokens as bs = matchingTokens bs as := by
  induction as generalizing bs with
  | nil => cases bs <;> rfl
  | cons a as ih =>
    cases bs with
    | nil => rfl
    | cons b bs =>
      rw [List.forall_mem_cons] at has hbs
      rw [matchingTokens, matchingTokens, Token.matching_comm has.1 hbs.1, ih has.2 hbs.2]

/-- Places are counted up, and nothing is told without a line. -/
theorem mem_tokenDifferences {entry : Nat × List String} (h : entry ∈ tokenDifferences place as bs) :
    place ≤ entry.1 ∧ entry.2 ≠ [] := by
  fun_induction tokenDifferences place as bs with
  | case1 => cases h
  | case2 place a as ih | case3 place b bs ih =>
    rcases List.mem_cons.mp h with rfl | h
    · exact ⟨le_rfl, List.cons_ne_nil _ _⟩
    · exact ⟨(Nat.le_succ place).trans (ih h).1, (ih h).2⟩
  | case4 place a as b bs rest hnil ih => exact ⟨(Nat.le_succ place).trans (ih h).1, (ih h).2⟩
  | case5 place a as b bs rest hne ih =>
    rcases List.mem_cons.mp h with rfl | h
    · exact ⟨le_rfl, hne⟩
    · exact ⟨(Nat.le_succ place).trans (ih h).1, (ih h).2⟩

theorem le_of_mem_places {p : Nat} (h : p ∈ (tokenDifferences place as bs).map Prod.fst) : place ≤ p := by
  obtain ⟨entry, hentry, rfl⟩ := List.mem_map.mp h
  exact (mem_tokenDifferences hentry).1

theorem pairwise_tokenDifferences :
    ((tokenDifferences place as bs).map Prod.fst).Pairwise (· < ·) := by
  fun_induction tokenDifferences place as bs with
  | case1 => exact .nil
  | case2 _ _ _ ih | case3 _ _ _ ih | case5 _ _ _ _ _ _ _ ih =>
    exact .cons (fun _ hp => le_of_mem_places hp) ih
  | case4 _ _ _ _ _ _ _ ih => exact ih

/-- Behind the first token the places are counted from the next one on. -/
theorem mem_places_cons {lines : List String} {rest : List (Nat × List String)} :
    place + (i + 1) ∈ ((place, lines) :: rest).map Prod.fst ↔ place + 1 + i ∈ rest.map Prod.fst := by
  have hne : place + 1 + i ≠ place := by omega
  rw [Nat.add_comm i, ← Nat.add_assoc, List.map_cons, List.mem_cons, or_iff_right hne]

theorem mem_places_iff :
    ∀ i, place + i ∈ (tokenDifferences place as bs).map Prod.fst ↔ DifferAt as bs i := by
  fun_induction tokenDifferences place as bs with
  | case1 => simp [differAt_nil_left]
  | case2 place a as ih =>
    rintro (_ | i)
    · simp [differAt_nil_right]
    · rw [mem_places_cons, ih, differAt_nil_right, differAt_nil_right, List.length_cons,
        Nat.add_lt_add_iff_right]
  | case3 place b bs ih =>
    rintro (_ | i)
    · simp [differAt_nil_left]
    · rw [mem_places_cons, ih, differAt_nil_left, differAt_nil_left, List.length_cons,
        Nat.add_lt_add_iff_right]
  | case4 place a as b bs rest hnil ih =>
    rintro (_ | i)
    · rw [differAt_cons_zero, Token.differences_eq_nil_iff.mp hnil]
      exact iff_of_false (fun h => absurd (le_of_mem_places h) (by omega)) nofun
    · rw [Nat.add_comm i, ← Nat.add_assoc, ih, Nat.add_comm, differAt_cons_succ]
  | case5 place a as b bs rest hne ih =>
    rintro (_ | i)
    · rw [differAt_cons_zero, ← Bool.not_eq_true, ← Token.differences_eq_nil_iff]
      exact iff_of_true List.mem_cons_self hne
    · rw [mem_places_cons, ih, differAt_cons_succ]

end Lists

namespace TokenStream

variable {a b : TokenStream}

theorem mem_differences {entry : Nat × List String} (h : entry ∈ a.differences b) :
    entry ∈ tokenDifferences 0 a.tokens b.tokens := by
  unfold differences at h
  split at h
  · cases h
  · exact h

theorem mem_places_differences_iff (i : Nat) :
    i ∈ (a.differences b).map Prod.fst ↔ DifferAt a.tokens b.tokens i := by
  unfold differences
  split
  · rename_i hmatching
    exact iff_of_false nofun (matchingTokens_iff.mp hmatching i)
  · rw [← Nat.zero_add i, mem_places_iff, Nat.zero_add]

/-- Nothing is told of two streams just if they match, and then they match the other way round. Otherwise
the places at which they differ are told, in order, each with at least one line. Objects in tokens have
each key once. -/
theorem differences_complete (a b : TokenStream) :
    (a.differences b = [] ↔ a.matching b = true) ∧
    ((a.differences b).map Prod.fst).Pairwise (· < ·) ∧
    (∀ i, i ∈ (a.differences b).map Prod.fst ↔ DifferAt a.tokens b.tokens i) ∧
    (∀ entry ∈ a.differences b, entry.2 ≠ []) ∧
    ((∀ t ∈ a.tokens ++ b.tokens, t.value.HasUniqueKeys) → a.matching b = b.matching a) := by
  refine ⟨⟨fun hnil => ?_, fun hmatching => if_pos hmatching⟩, ?_, mem_places_differences_iff,
    fun entry hentry => (mem_tokenDifferences (mem_differences hentry)).2, fun hkeys => ?_⟩
  · refine matchingTokens_iff.mpr fun i hi => ?_
    rw [← mem_places_differences_iff, hnil] at hi
    cases hi
  · unfold differences
    split
    · exact .nil
    · exact pairwise_tokenDifferences
  · rw [List.forall_mem_append] at hkeys
    exact matchingTokens_comm hkeys.1 hkeys.2

/-- The first tokens match although their values are of two kinds, and so do the second ones although
their entries are in another order. The third ones do not, and only the second stream has a fourth one. -/
theorem differences_complete_handMade :
    let first (v : Value) : Token := ⟨.number, v, 1⟩
    let second (fields : List (String × Value)) : Token := ⟨.name, .object fields, 3⟩
    let a : TokenStream := ⟨"", [], first (.bool true),
      [second [("p", .null), ("q", .int 1)], Token.ending 5]⟩
    let b : TokenStream := ⟨"", [], first (.int 1),
      [second [("q", .int 1), ("p", .null)], ⟨.string, .string "z", 5⟩, Token.ending 6]⟩
    (∀ t ∈ a.tokens ++ b.tokens, t.value.HasUniqueKeys) ∧ a.matching b = b.matching a ∧
      (∀ i, i ∈ (a.differences b).map Prod.fst ↔ i = 2 ∨ i = 3) ∧ a.matching b = false := by
  intro first second a b
  have hatom (v : Value) (hv : v.isAtom = true) := Value.hasUniqueKeys_of_isAtom hv
  have hkeys : ∀ t ∈ a.tokens ++ b.tokens, t.value.HasUniqueKeys := by
    simp [a, b, first, second, tokens, Token.ending, Value.hasUniqueKeys_object, Dict.keys,
      hatom (.bool true) rfl, hatom (.int 1) rfl, hatom .null rfl, hatom (.string "z") rfl]
  obtain ⟨hempty, -, hplaces, -, hcomm⟩ := differences_complete a b
  have hdiffer (i : Nat) : DifferAt a.tokens b.tokens i ↔ i = 2 ∨ i = 3 := by
    have hfirst : (first (.bool true)).matching (first (.int 1)) = true := by decide
    have hsecond : (second [("p", .null), ("q", .int 1)]).matching
        (second [("q", .int 1), ("p", .null)]) = true := by decide
    have hthird : (Token.ending 5).matching ⟨.string, .string "z", 5⟩ = false := by decide
    rcases i with _ | _ | _ | _ | i
    · exact iff_of_false (Bool.not_eq_false _ ▸ hfirst) (by decide)
    · exact iff_of_false (Bool.not_eq_false _ ▸ hsecond) (by decide)
    · exact iff_of_true hthird (.inl rfl)
    · exact iff_of_true trivial (.inr rfl)
    · exact iff_of_false id (by omega)
  refine ⟨hkeys, hcomm hkeys, fun i => (hplaces i).trans (hdiffer i), ?_⟩
  rw [← Bool.not_eq_true, ← hempty]
  intro hnil
  have htwo := (hplaces 2).mpr ((hdiffer 2).mpr (.inl rfl))
  rw [hnil] at htwo
  cases htwo

end TokenStream
end Formula
