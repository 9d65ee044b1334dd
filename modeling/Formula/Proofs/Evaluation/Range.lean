import Mathlib
import Formula.Proofs.Evaluation.Arithmetic

/-! Ranges of whole numbers. They hold all numbers from one bound to the other, up to the limits of 64
bits, and are refused by their exact length when that is too large. -/

namespace Formula

namespace Operation

variable {low high first last x : Int64}

theorem toInt_add_ofNat {n : Int64} {i : Nat} (h : n.toInt + i < 2 ^ 63) :
    (n + Int64.ofNat i).toInt = n.toInt + i := by
  have hlow := n.le_toInt
  rw [Int64.toInt_add, Int64.toInt_ofNat', Int.add_bmod_bmod, Int64.size]
  exact Int.bmod_eq_of_le (by omega) (by omega)

theorem length_ascending : (ascending low high).length = (high.toInt - low.toInt).toNat + 1 := by
  rw [ascending, List.length_map, List.length_range]

/-- The last number that is reached is the upper bound, so that no sum leaves the 64 bits. -/
theorem toInt_getElem_ascending (h : low ≤ high) {i : Nat} (hi : i < (ascending low high).length) :
    (ascending low high)[i].toInt = low.toInt + i := by
  have hle := Int64.le_iff_toInt_le.mp h
  have hhigh := high.toInt_lt
  rw [length_ascending] at hi
  simp only [ascending, List.getElem_map, List.getElem_range]
  exact toInt_add_ofNat (by omega)

theorem mem_ascending_iff (h : low ≤ high) : x ∈ ascending low high ↔ low ≤ x ∧ x ≤ high := by
  have hle := Int64.le_iff_toInt_le.mp h
  rw [Int64.le_iff_toInt_le, Int64.le_iff_toInt_le, List.mem_iff_getElem]
  constructor
  · rintro ⟨i, hi, rfl⟩
    rw [toInt_getElem_ascending h hi]
    rw [length_ascending] at hi
    omega
  · rintro ⟨hlow, hhigh⟩
    have hi : (x.toInt - low.toInt).toNat < (ascending low high).length := by
      rw [length_ascending]
      omega
    refine ⟨_, hi, Int64.toInt_inj.mp ?_⟩
    rw [toInt_getElem_ascending h hi]
    omega

theorem length_rangeItems : (rangeItems first last).length = (last.toInt - first.toInt).natAbs + 1 := by
  unfold rangeItems
  split
  · rename_i h
    have := Int64.le_iff_toInt_le.mp h
    rw [length_ascending]
    omega
  · rename_i h
    have := Int64.le_iff_toInt_le.not.mp h
    rw [List.length_reverse, length_ascending]
    omega

theorem toInt_getElem_rangeItems {i : Nat} (hi : i < (rangeItems first last).length) :
    (rangeItems first last)[i].toInt = if first ≤ last then first.toInt + i else first.toInt - i := by
  have hlength := hi
  rw [length_rangeItems] at hlength
  by_cases h : first ≤ last
  · simp only [rangeItems, if_pos h, toInt_getElem_ascending h]
  · have hlt := Int64.le_iff_toInt_le.not.mp h
    have hle : last ≤ first := Int64.le_iff_toInt_le.mpr (by omega)
    simp only [rangeItems, if_neg h, List.getElem_reverse, toInt_getElem_ascending hle, length_ascending]
    omega

theorem mem_rangeItems_iff :
    x ∈ rangeItems first last ↔ first ≤ x ∧ x ≤ last ∨ last ≤ x ∧ x ≤ first := by
  unfold rangeItems
  split
  · rename_i h
    rw [mem_ascending_iff h]
    simp only [Int64.le_iff_toInt_le] at h ⊢
    omega
  · rename_i h
    simp only [Int64.le_iff_toInt_le] at h
    rw [List.mem_reverse, mem_ascending_iff (Int64.le_iff_toInt_le.mpr (by omega))]
    simp only [Int64.le_iff_toInt_le]
    omega

theorem range_ints (a b : Int64) : range (.int a) (.int b) =
    if (b.toInt - a.toInt).natAbs + 1 ≤ 1000000 then .ok (.array ((rangeItems a b).map .int))
    else .error (.rangeTooLarge ((b.toInt - a.toInt).natAbs + 1)) := by
  simp only [range, Value.asInt?, maxRangeLength, ← not_le, ite_not]

/-- Whole numbers are looked for by their exact values. -/
theorem contains_ints (op : BinaryOp) (x : Int64) (ns : List Int64) :
    contains op (.int x) (.array (ns.map .int)) = .ok (decide (x ∈ ns)) := by
  refine congrArg Except.ok (Bool.eq_iff_iff.mpr ?_)
  simp [Value.strictEq]

end Operation

namespace Evaluation

theorem evalIn_binary_of_error {op : BinaryOp} (hop : op.shortCircuits = false) {env : Env}
    (soft : Bool) {left right : Expr} {leftCalls rightCalls : List Call} {l : Value} {e : EvalError}
    (hleft : evalIn env false left = ⟨leftCalls, .ok l⟩)
    (hright : evalIn env false right = ⟨rightCalls, .error e⟩) :
    evalIn env soft (.binary op left right) = ⟨leftCalls ++ rightCalls, .error e⟩ := by
  rw [evalIn_binary hop, hleft, Outcome.bind_of_ok rfl, hright, Outcome.bind_of_error rfl]

/-- Up to a length of a million a range is the list of all numbers from the first bound to the last, and a
number is in it just if it lies between the bounds. A longer range fails with its length. -/
theorem evalIn_range_ints {env : Env} (soft : Bool) {left right : Expr}
    {leftCalls rightCalls : List Call} {a b : Int64}
    (hleft : evalIn env false left = ⟨leftCalls, .ok (.int a)⟩)
    (hright : evalIn env false right = ⟨rightCalls, .ok (.int b)⟩) :
    let length := (b.toInt - a.toInt).natAbs + 1
    (length ≤ 1000000 →
      (∃ ns : List Int64,
        evalIn env soft (.binary .range left right) =
          ⟨leftCalls ++ rightCalls, .ok (.array (ns.map .int))⟩ ∧
        ns.length = length ∧
        ∀ (i : Nat) (hi : i < ns.length),
          ns[i].toInt = if a ≤ b then a.toInt + i else a.toInt - i) ∧
      ∀ {element : Expr} {calls : List Call} {x : Int64},
        evalIn env false element = ⟨calls, .ok (.int x)⟩ →
        evalIn env soft (.binary .isIn element (.binary .range left right)) =
          ⟨calls ++ (leftCalls ++ rightCalls),
            .ok (.bool (decide (a ≤ x ∧ x ≤ b ∨ b ≤ x ∧ x ≤ a)))⟩) ∧
    (1000000 < length →
      evalIn env soft (.binary .range left right) =
        ⟨leftCalls ++ rightCalls, .error (.rangeTooLarge length)⟩ ∧
      ∀ {element : Expr} {calls : List Call} {x : Int64},
        evalIn env false element = ⟨calls, .ok (.int x)⟩ →
        evalIn env soft (.binary .isIn element (.binary .range left right)) =
          ⟨calls ++ (leftCalls ++ rightCalls), .error (.rangeTooLarge length)⟩) := by
  intro length
  have hrange (soft : Bool) : evalIn env soft (.binary .range left right) =
      ⟨leftCalls ++ rightCalls, if length ≤ 1000000 then .ok (.array ((Operation.rangeItems a b).map .int))
        else .error (.rangeTooLarge length)⟩ := by
    rw [evalIn_binary_of_ok rfl soft hleft hright, Operation.binary, Operation.range_ints]
  refine ⟨fun hshort => ?_, fun hlong => ?_⟩
  · simp only [if_pos hshort] at hrange
    refine ⟨⟨_, hrange soft, Operation.length_rangeItems, fun i hi =>
      Operation.toInt_getElem_rangeItems hi⟩, fun helement => ?_⟩
    rw [evalIn_binary_of_ok rfl soft helement (hrange false), Operation.binary, Operation.contains_ints]
    simp only [Operation.mem_rangeItems_iff]
    rfl
  · simp only [if_neg hlong.not_ge] at hrange
    exact ⟨hrange soft, fun helement => evalIn_binary_of_error rfl soft helement (hrange false)⟩

/-- Downwards from the greatest number, and from the least number to the greatest. -/
theorem evalIn_range_ints_limits :
    let number (n : Int64) : Expr := .literal (.int n)
    let near : Expr := .binary .range (number Int64.maxValue) (number 9223372036854775805)
    let far : Expr := .binary .range (number Int64.minValue) (number Int64.maxValue)
    evalIn (echoing []) false near =
      ⟨[], .ok (.array [.int 9223372036854775807, .int 9223372036854775806, .int 9223372036854775805])⟩ ∧
    evalIn (echoing []) false (.binary .isIn (number 9223372036854775804) near) =
      ⟨[], .ok (.bool false)⟩ ∧
    evalIn (echoing []) false far = ⟨[], .error (.rangeTooLarge 18446744073709551616)⟩ := by
  intro number near far
  have hnumber (n : Int64) : evalIn (echoing []) false (number n) = ⟨[], .ok (.int n)⟩ := rfl
  obtain ⟨⟨ns, hns, hlength, hitem⟩, hin⟩ :=
    (evalIn_range_ints false (hnumber Int64.maxValue) (hnumber 9223372036854775805)).1 (by decide)
  refine ⟨?_, hin (hnumber _), ?_⟩
  · have hitems : ns = [9223372036854775807, 9223372036854775806, 9223372036854775805] := by
      refine List.ext_getElem hlength fun i hi hi' => Int64.toInt_inj.mp ?_
      rw [hitem i hi]
      match i, hi' with
      | 0, _ | 1, _ | 2, _ => rfl
    rw [hns, hitems]
    rfl
  · exact ((evalIn_range_ints false (hnumber Int64.minValue) (hnumber Int64.maxValue)).2 (by decide)).1

end Evaluation
end Formula
