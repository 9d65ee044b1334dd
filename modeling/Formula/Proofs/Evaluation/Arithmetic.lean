import Mathlib
import Formula.Proofs.Evaluation.Chain
import Formula.Proofs.Token.Scanned

/-! Arithmetic on whole numbers. The exact result is found whenever 64 bits hold it, but for two kinds of
operands, and all other results are floats. -/

namespace Formula

namespace BinaryOp

def isArithmetic : BinaryOp → Bool
  | add | subtract | multiply | divide | modulo | power => true
  | _ => false

/-- `r` is the exact result of the operator. A remainder is smaller than the divisor and has the sign
of the dividend. -/
def IsExact (op : BinaryOp) (a b r : Int) : Prop :=
  match op with
  | add => r = a + b
  | subtract => r = a - b
  | multiply => r = a * b
  | divide => b ≠ 0 ∧ a = b * r
  | modulo => (∃ q, a = b * q + r) ∧ r.natAbs < b.natAbs ∧ (0 ≤ a → 0 ≤ r) ∧ (a ≤ 0 → r ≤ 0)
  | power => 0 ≤ b ∧ r = a ^ b.toNat
  | _ => False

/-- Operands whose exact result is not looked for: the least number by minus one leaves the remainder
zero, and the powers of zero and of the units fit whatever the exponent. -/
def Overlooks (op : BinaryOp) (a b : Int) : Prop :=
  match op with
  | modulo => a = -0x8000000000000000 ∧ b = -1
  | power => a.natAbs ≤ 1 ∧ 0x100000000 ≤ b
  | _ => False

variable {a b r : Int}

theorem isExact_divide_iff : divide.IsExact a b r ↔ b ≠ 0 ∧ a.tmod b = 0 ∧ a.tdiv b = r := by
  refine and_congr_right fun hb => ⟨?_, ?_⟩
  · rintro rfl
    exact ⟨Int.mul_tmod_right b r, Int.mul_tdiv_cancel_left r hb⟩
  · rintro ⟨hmod, rfl⟩
    have h := Int.mul_tdiv_add_tmod a b
    rw [hmod, add_zero] at h
    exact h.symm

theorem isExact_modulo_iff : modulo.IsExact a b r ↔ b ≠ 0 ∧ a.tmod b = r := by
  constructor
  · rintro ⟨⟨q, hq⟩, hless, hpositive, hnegative⟩
    have hb : b ≠ 0 := by omega
    refine ⟨hb, ?_⟩
    rcases le_total 0 a with ha | ha
    · have := hpositive ha
      exact ((Int.tdiv_tmod_unique (q := q) ha hb).mpr ⟨by omega, this, by omega⟩).2
    · have := hnegative ha
      exact ((Int.tdiv_tmod_unique' (q := q) ha hb).mpr ⟨by omega, by omega, this⟩).2
  · rintro ⟨hb, rfl⟩
    refine ⟨⟨a.tdiv b, (Int.mul_tdiv_add_tmod a b).symm⟩, ?_, Int.tmod_nonneg b, fun ha => ?_⟩
    · rw [Int.natAbs_tmod]
      exact Nat.mod_lt _ (Int.natAbs_pos.mpr hb)
    · exact ((Int.tdiv_tmod_unique' ha hb).mp ⟨rfl, rfl⟩).2.2

theorem pow_of_natAbs_le_one (ha : a.natAbs ≤ 1) (n : Nat) :
    a ^ n = if n = 0 then 1 else if n % 2 = 0 then a * a else a := by
  have hcases : a = 0 ∨ a = 1 ∨ a = -1 := by omega
  rcases hcases with rfl | rfl | rfl
  · cases n <;> simp
  · simp
  · rcases Nat.even_or_odd n with hn | hn
    · simp [hn.neg_one_pow, Nat.even_iff.mp hn]
    · have hne : n ≠ 0 := fun h => by simp [h] at hn
      simp [hn.neg_one_pow, Nat.odd_iff.mp hn, hne]

theorem two_pow_le_natAbs_pow (ha : ¬a.natAbs ≤ 1) {k n : Nat} (hn : k ≤ n) : 2 ^ k ≤ (a ^ n).natAbs := by
  rw [Int.natAbs_pow]
  calc 2 ^ k ≤ 2 ^ n := Nat.pow_le_pow_right Nat.two_pos hn
    _ ≤ a.natAbs ^ n := Nat.pow_le_pow_left (by omega) n

theorem onInts?_power_of_natAbs_le_one (ha : a.natAbs ≤ 1) (hb : 0 ≤ b) (hsmall : b < 0x100000000) :
    power.onInts? a b = some (a ^ b.toNat) := by
  have hexponent : ¬(decide (b < 0) || decide (0x100000000 ≤ b)) = true := by simp; omega
  have hzero : b = 0 ↔ b.toNat = 0 := by omega
  have hparity : b % 2 = 0 ↔ b.toNat % 2 = 0 := by omega
  simp only [onInts?, if_neg hexponent, if_pos ha, pow_of_natAbs_le_one ha, beq_iff_eq, hzero, hparity]

theorem onInts?_power_of_not_natAbs_le_one (ha : ¬a.natAbs ≤ 1) :
    power.onInts? a b = if 0 ≤ b ∧ b ≤ 64 then some (a ^ b.toNat) else none := by
  by_cases hexponent : 0 ≤ b ∧ b ≤ 64
  · rw [if_pos hexponent]
    have hrange : ¬(decide (b < 0) || decide (0x100000000 ≤ b)) = true := by simp; omega
    simp only [onInts?, if_neg hrange, if_neg ha, if_pos hexponent.2]
    rfl
  · rw [if_neg hexponent]
    simp only [onInts?, if_neg ha]
    split
    · rfl
    · rename_i hrange
      exact if_neg fun hle => hexponent ⟨by simp at hrange; omega, hle⟩

theorem onInts?_power_eq_some_iff (hfits : r.natAbs < 2 ^ 65) :
    power.onInts? a b = some r ↔ power.IsExact a b r ∧ ¬power.Overlooks a b := by
  by_cases ha : a.natAbs ≤ 1
  · by_cases hb : 0 ≤ b ∧ b < 0x100000000
    · rw [onInts?_power_of_natAbs_le_one ha hb.1 hb.2, Option.some_inj, eq_comm]
      exact ⟨fun h => ⟨⟨hb.1, h⟩, fun hover => absurd hover.2 (not_le.mpr hb.2)⟩, fun h => h.1.2⟩
    · have hexponent : (decide (b < 0) || decide (0x100000000 ≤ b)) = true := by simp; omega
      rw [onInts?, if_pos hexponent]
      exact iff_of_false nofun fun h => h.2 ⟨ha, by have := h.1.1; omega⟩
  · rw [onInts?_power_of_not_natAbs_le_one ha]
    have hnot : ¬power.Overlooks a b := fun hover => ha hover.1
    split
    · rename_i hb
      rw [Option.some_inj, eq_comm]
      exact ⟨fun h => ⟨⟨hb.1, h⟩, hnot⟩, fun h => h.1.2⟩
    · rename_i hb
      refine iff_of_false nofun ?_
      -- Beyond an exponent of 64 there is nothing left that fits.
      rintro ⟨⟨hnonneg, rfl⟩, -⟩
      have := two_pow_le_natAbs_pow ha (show 65 ≤ b.toNat by omega)
      omega

/-- What is found is the exact result, and it is found unless it is overlooked. -/
theorem onInts?_eq_some_iff {op : BinaryOp} (hop : op.isArithmetic = true) (hfits : r.natAbs < 2 ^ 65) :
    op.onInts? a b = some r ↔ op.IsExact a b r ∧ ¬op.Overlooks a b := by
  cases op with
  | add | subtract | multiply => simp [onInts?, IsExact, Overlooks, eq_comm]
  | divide =>
    rw [isExact_divide_iff]
    simp [onInts?, Overlooks, and_assoc]
  | modulo =>
    rw [isExact_modulo_iff]
    simp only [onInts?, Overlooks]
    split <;> rename_i h <;> simp at h <;> simp <;> tauto
  | power => exact onInts?_power_eq_some_iff hfits
  | _ => cases hop

end BinaryOp

namespace Operation

theorem binary_ints {op : BinaryOp} (hop : op.isArithmetic = true) (a b : Int64) :
    binary op (.int a) (.int b) = arithmetic op (.int a) (.int b) := by
  cases op <;> first | rfl | cases hop

theorem arithmetic_ints {op : BinaryOp} (hop : op.isArithmetic = true) (a b : Int64) :
    ∃ v, arithmetic op (.int a) (.int b) = .ok v ∧
      (∀ r : Int64, v = .int r ↔
        op.IsExact a.toInt b.toInt r.toInt ∧ ¬op.Overlooks a.toInt b.toInt) ∧
      ((∀ r : Int64, v ≠ .int r) →
        v = .float (op.onFloats (Number.ofInt64 a) (Number.ofInt64 b))) := by
  have hfound (r : Int64) : (op.onInts? a.toInt b.toInt).bind Number.int64? = some r ↔
      op.IsExact a.toInt b.toInt r.toInt ∧ ¬op.Overlooks a.toInt b.toInt := by
    have hfits : r.toInt.natAbs < 2 ^ 65 := by
      have := r.le_toInt
      have := r.toInt_lt
      omega
    -- Only results of 64 bits are asked for, and for these the bound on exponents loses nothing.
    rw [← BinaryOp.onInts?_eq_some_iff hop hfits, Option.bind_eq_some_iff]
    simp only [Number.int64?_eq_some_iff, exists_eq_right']
  unfold arithmetic
  dsimp only
  cases hresult : (op.onInts? a.toInt b.toInt).bind Number.int64? with
  | some n =>
    refine ⟨.int n, rfl, fun r => ?_, fun hnone => absurd rfl (hnone n)⟩
    rw [← hfound r, hresult, Value.int.injEq, Option.some_inj]
  | none =>
    refine ⟨_, rfl, fun r => ?_, fun _ => rfl⟩
    rw [← hfound r, hresult]
    exact iff_of_false nofun nofun

end Operation

namespace Evaluation

/-- Both operands are evaluated, the left one first, and the operator is applied to their values. -/
theorem evalIn_binary {op : BinaryOp} (hop : op.shortCircuits = false) (env : Env) (soft : Bool)
    (left right : Expr) :
    evalIn env soft (.binary op left right) = (do
      let l ← evalIn env false left
      let r ← evalIn env false right
      Outcome.ofExcept (Operation.binary op l r)) := by
  rw [evalIn, settle, walk, bind_assoc]
  refine bind_congr fun l => ?_
  have hdecides : decides op l = false := by rw [decides, hop, Bool.false_and]
  simp only [hdecides, hop, Bool.false_eq_true, if_false, bind_assoc, pure_bind]
  refine bind_congr fun r => ?_
  exact bind_pure _

theorem evalIn_binary_of_ok {op : BinaryOp} (hop : op.shortCircuits = false) {env : Env} (soft : Bool)
    {left right : Expr} {leftCalls rightCalls : List Call} {l r : Value}
    (hleft : evalIn env false left = ⟨leftCalls, .ok l⟩)
    (hright : evalIn env false right = ⟨rightCalls, .ok r⟩) :
    evalIn env soft (.binary op left right) =
      ⟨leftCalls ++ rightCalls, Operation.binary op l r⟩ := by
  rw [evalIn_binary hop, hleft, Outcome.bind_of_ok rfl, hright, Outcome.bind_of_ok rfl]
  exact congrArg (Outcome.mk · _) (by rw [Outcome.ofExcept, List.append_nil])

/-- Whole-number arithmetic never fails. The result is a whole number just when the exact one is and 64
bits hold it, and then it is the exact one; the operands that are overlooked apart, as they give a float.
All other results are those on floats. -/
theorem evalIn_arithmetic_ints {op : BinaryOp} (hop : op.isArithmetic = true) {env : Env} (soft : Bool)
    {left right : Expr} {leftCalls rightCalls : List Call} {a b : Int64}
    (hleft : evalIn env false left = ⟨leftCalls, .ok (.int a)⟩)
    (hright : evalIn env false right = ⟨rightCalls, .ok (.int b)⟩) :
    ∃ v, evalIn env soft (.binary op left right) = ⟨leftCalls ++ rightCalls, .ok v⟩ ∧
      (∀ r : Int64, v = .int r ↔
        op.IsExact a.toInt b.toInt r.toInt ∧ ¬op.Overlooks a.toInt b.toInt) ∧
      ((∀ r : Int64, v ≠ .int r) →
        v = .float (op.onFloats (Number.ofInt64 a) (Number.ofInt64 b))) := by
  have hstrict : op.shortCircuits = false := by
    cases op <;> first | rfl | cases hop
  obtain ⟨v, hv, hint, hfloat⟩ := Operation.arithmetic_ints hop a b
  refine ⟨v, ?_, hint, hfloat⟩
  rw [evalIn_binary_of_ok hstrict soft hleft hright, Operation.binary_ints hop, hv]

/-- At the limits of 64 bits: `-2 ** 63` is the least number, whose quotient by minus one is a float. -/
theorem evalIn_arithmetic_ints_limits :
    let number (n : Int64) : Expr := .literal (.int n)
    evalIn (echoing []) false (.binary .power (number (-2)) (number 63)) =
      ⟨[], .ok (.int Int64.minValue)⟩ ∧
    evalIn (echoing []) false (.binary .divide (number Int64.minValue) (number (-1))) =
      ⟨[], .ok (.float (Number.ofInt64 Int64.minValue / Number.ofInt64 (-1)))⟩ := by
  intro number
  have hnumber (n : Int64) : evalIn (echoing []) false (number n) = ⟨[], .ok (.int n)⟩ := rfl
  constructor
  · have hpower : BinaryOp.power.isArithmetic = true := rfl
    obtain ⟨v, hv, hint, -⟩ := evalIn_arithmetic_ints hpower false (hnumber (-2)) (hnumber 63)
    have hexact : BinaryOp.power.IsExact (-2) 63 (-0x8000000000000000) := ⟨by decide, rfl⟩
    have hfound : ¬BinaryOp.power.Overlooks (-2) 63 := fun h => absurd h.1 (by decide)
    rw [hv, (hint Int64.minValue).mpr ⟨hexact, hfound⟩, List.nil_append]
  · have hdivide : BinaryOp.divide.isArithmetic = true := rfl
    obtain ⟨v, hv, hint, hfloat⟩ :=
      evalIn_arithmetic_ints hdivide false (hnumber Int64.minValue) (hnumber (-1))
    have hlarge (r : Int64) : v ≠ .int r := fun h => by
      have hr : (-0x8000000000000000 : Int) = -1 * r.toInt := ((hint r).mp h).1.2
      have := r.toInt_lt
      omega
    rw [hv, hfloat hlarge]
    rfl

/-- The remainder of the least number by minus one is zero, and every power of one is one, but the results
are floats. -/
theorem evalIn_overlooked :
    let number (n : Int64) : Expr := .literal (.int n)
    (BinaryOp.modulo.IsExact Int64.minValue.toInt (-1) 0 ∧
      ∃ x, evalIn (echoing []) false (.binary .modulo (number Int64.minValue) (number (-1))) =
        ⟨[], .ok (.float x)⟩) ∧
    (BinaryOp.power.IsExact 1 0x100000000 1 ∧
      ∃ x, evalIn (echoing []) false (.binary .power (number 1) (number 0x100000000)) =
        ⟨[], .ok (.float x)⟩) :=
  ⟨⟨⟨⟨0x8000000000000000, rfl⟩, by decide⟩, _, rfl⟩,
    ⟨⟨by decide, (one_pow _).symm⟩, _, rfl⟩⟩

end Evaluation
end Formula
