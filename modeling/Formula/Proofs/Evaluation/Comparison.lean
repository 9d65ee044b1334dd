import Mathlib
import Formula.Proofs.Evaluation.Arithmetic
import Formula.Proofs.Number.Rounding

/-! Comparisons of whole numbers, and the least and the greatest of several. Strict equality looks at the
numbers themselves and all else at the floats nearest to them, so that two large numbers that are close to
each other may count as one. -/

namespace Formula

namespace Number

/-- Whole numbers whose floats differ if they do. -/
def ToldApart (a b : Int) : Prop := rounded a = rounded b → a = b

theorem toldApart_of_natAbs_le {a b : Int} (ha : a.natAbs ≤ 2 ^ 53) (hb : b.natAbs ≤ 2 ^ 53) :
    ToldApart a b := by
  rw [ToldApart, rounded_of_natAbs_le ha, rounded_of_natAbs_le hb]
  exact id

theorem toldApart_of_lt_natAbs_sub {a b : Int} (ha : a.natAbs ≤ 2 ^ 63) (hb : b.natAbs ≤ 2 ^ 63)
    (hab : 1024 < (a - b).natAbs) : ToldApart a b := by
  intro heq
  have := rounded_near ha
  have := rounded_near hb
  omega

namespace ToldApart

variable {a b : Int}

theorem symm (h : ToldApart a b) : ToldApart b a := fun heq => (h heq.symm).symm

theorem eq_iff (h : ToldApart a b) : rounded a = rounded b ↔ a = b := ⟨h, congrArg rounded⟩

theorem lt_iff (h : ToldApart a b) : rounded a < rounded b ↔ a < b := by
  refine ⟨fun hlt => lt_of_not_ge fun hge => hlt.not_ge (rounded_mono hge), fun hlt => ?_⟩
  exact (rounded_mono hlt.le).lt_of_ne fun heq => hlt.ne (h heq)

theorem le_iff (h : ToldApart a b) : rounded a ≤ rounded b ↔ a ≤ b := by
  rw [← not_lt, ← not_lt, h.symm.lt_iff]

end ToldApart
end Number

namespace BinaryOp

def isComparison : BinaryOp → Bool
  | equal | notEqual | identical | notIdentical | less | greater | lessEqual | greaterEqual => true
  | _ => false

/-- Whether two whole numbers are related as a comparison says. -/
def holds (op : BinaryOp) (a b : Int) : Bool :=
  match op with
  | equal | identical => a == b
  | notEqual | notIdentical => a != b
  | less => a < b
  | greater => b < a
  | lessEqual => a ≤ b
  | greaterEqual => b ≤ a
  | _ => false

/-- What a comparison sees of a whole number. -/
def view (op : BinaryOp) (n : Int) : Int :=
  match op with
  | identical | notIdentical => n
  | _ => Number.rounded n

/-- Comparisons are right about whole numbers just if these are told apart. -/
theorem holds_view_iff (a b : Int) :
    (∀ op : BinaryOp, op.isComparison = true → op.holds (op.view a) (op.view b) = op.holds a b) ↔
      Number.ToldApart a b := by
  constructor
  · intro h heq
    have hequal : decide (Number.rounded a = Number.rounded b) = decide (a = b) := h .equal rfl
    rwa [decide_eq_true heq, eq_comm, decide_eq_true_iff] at hequal
  · intro h op hop
    cases op with
    | equal => exact decide_eq_decide.mpr h.eq_iff
    | notEqual => exact congrArg not (decide_eq_decide.mpr h.eq_iff)
    | identical | notIdentical => rfl
    | less => exact decide_eq_decide.mpr h.lt_iff
    | greater => exact decide_eq_decide.mpr h.symm.lt_iff
    | lessEqual => exact decide_eq_decide.mpr h.le_iff
    | greaterEqual => exact decide_eq_decide.mpr h.symm.le_iff
    | _ => cases hop

end BinaryOp

namespace Operation

theorem order?_ints (a b : Int64) : order? (.int a) (.int b) =
    some (compare (Number.rounded a.toInt) (Number.rounded b.toInt)) := by
  unfold order?
  simp only [Value.toNumber, Number.ofInt64_lt_iff, Number.ofInt64_beq_iff]
  rcases lt_trichotomy (Number.rounded a.toInt) (Number.rounded b.toInt) with h | h | h
  · rw [if_pos h, compare_lt_iff_lt.mpr h]
  · rw [if_neg h.not_lt, if_pos h, compare_eq_iff_eq.mpr h]
  · rw [if_neg h.not_gt, if_neg h.ne', if_pos h, compare_gt_iff_gt.mpr h]

theorem looseEq_ints (a b : Int64) : (Value.int a).looseEq (.int b) =
    (Number.rounded a.toInt == Number.rounded b.toInt) := by
  rw [Bool.eq_iff_iff, beq_iff_eq, ← Number.ofInt64_beq_iff]
  simp [Value.looseEq, Value.isScalar, Value.toNumber]

theorem strictEq_ints (a b : Int64) : (Value.int a).strictEq (.int b) = (a.toInt == b.toInt) := by
  rw [Bool.eq_iff_iff, beq_iff_eq, Int64.toInt_inj]
  simp [Value.strictEq]

theorem binary_comparison_ints {op : BinaryOp} (hop : op.isComparison = true) (a b : Int64) :
    binary op (.int a) (.int b) = .ok (.bool (op.holds (op.view a.toInt) (op.view b.toInt))) := by
  cases op with
  | equal | notEqual =>
    simp only [binary, looseEq_ints]
    rfl
  | identical | notIdentical =>
    simp only [binary, strictEq_ints]
    rfl
  | less | greater =>
    show _ = Except.ok (Value.bool (BinaryOp.holds _ (Number.rounded a.toInt) (Number.rounded b.toInt)))
    refine congrArg (fun t => Except.ok (Value.bool t)) (Bool.eq_iff_iff.mpr ?_)
    simp only [order?_ints, BinaryOp.holds, beq_iff_eq, Option.some_inj, compare_lt_iff_lt,
      compare_gt_iff_gt, decide_eq_true_iff]
  | lessEqual | greaterEqual =>
    show _ = Except.ok (Value.bool (BinaryOp.holds _ (Number.rounded a.toInt) (Number.rounded b.toInt)))
    refine congrArg (fun t => Except.ok (Value.bool t)) (Bool.eq_iff_iff.mpr ?_)
    simp only [order?_ints, BinaryOp.holds, Bool.or_eq_true, beq_iff_eq, Option.some_inj,
      compare_lt_iff_lt, compare_gt_iff_gt, compare_eq_iff_eq, decide_eq_true_iff]
    omega
  | _ => cases hop

end Operation

/-- `r` is the first of the items with the smallest key. -/
def IsFirstLeast {α : Type} (key : α → Int) (r : α) (items : List α) : Prop :=
  ∃ before after, items = before ++ r :: after ∧
    (∀ n ∈ before, key r < key n) ∧ ∀ n ∈ after, key r ≤ key n

namespace IsFirstLeast

variable {α : Type} {key : α → Int} {m n r : α} {items : List α}

theorem singleton (key : α → Int) (m : α) : IsFirstLeast key m [m] := ⟨[], [], rfl, nofun, nofun⟩

theorem mem (h : IsFirstLeast key r items) : r ∈ items := by
  obtain ⟨before, after, rfl, -⟩ := h
  exact List.mem_append_right before List.mem_cons_self

theorem key_le (h : IsFirstLeast key r items) (hn : n ∈ items) : key r ≤ key n := by
  obtain ⟨before, after, rfl, hbefore, hafter⟩ := h
  rcases List.mem_append.mp hn with hn | hn
  · exact (hbefore n hn).le
  · rcases List.mem_cons.mp hn with rfl | hn
    · exact le_rfl
    · exact hafter n hn

/-- A later item with a smaller key takes the place of the first one. -/
theorem cons_of_lt (h : IsFirstLeast key r (n :: items)) (hlt : key n < key m) :
    IsFirstLeast key r (m :: n :: items) := by
  have hfirst : key r < key m := (h.key_le List.mem_cons_self).trans_lt hlt
  obtain ⟨before, after, heq, hbefore, hafter⟩ := h
  exact ⟨m :: before, after, congrArg (m :: ·) heq, List.forall_mem_cons.mpr ⟨hfirst, hbefore⟩, hafter⟩

theorem cons_of_le (h : IsFirstLeast key r (m :: items)) (hle : key m ≤ key n) :
    IsFirstLeast key r (m :: n :: items) := by
  obtain ⟨before, after, heq, hbefore, hafter⟩ := h
  cases before with
  | nil =>
    obtain ⟨rfl, rfl⟩ := List.cons.inj heq
    exact ⟨[], n :: items, rfl, nofun, List.forall_mem_cons.mpr ⟨hle, hafter⟩⟩
  | cons b before =>
    obtain ⟨rfl, rfl⟩ := List.cons.inj heq
    obtain ⟨hfirst, hbefore⟩ := List.forall_mem_cons.mp hbefore
    exact ⟨m :: n :: before, after, rfl, List.forall_mem_cons.mpr
      ⟨hfirst, List.forall_mem_cons.mpr ⟨hfirst.trans_le hle, hbefore⟩⟩, hafter⟩

end IsFirstLeast

namespace Builtin

variable {better : Float → Float → Bool} {key : Int64 → Int}

theorem best_ints_from (hbetter : ∀ a b : Int64,
      better (Number.ofInt64 a) (Number.ofInt64 b) = true ↔ key a < key b)
    (empty : Value) (m : Int64) (ns : List Int64) :
    ∃ r, best better empty (some (.int m, Number.ofInt64 m)) (ns.map .int) = .int r ∧
      IsFirstLeast key r (m :: ns) := by
  -- The best so far is put in front of the items that are still to come.
  induction ns generalizing m with
  | nil => exact ⟨m, rfl, .singleton key m⟩
  | cons n ns ih =>
    have hnumber : (Value.int n).toNumber = Number.ofInt64 n := rfl
    simp only [List.map_cons, best, hnumber, Number.isNaN_ofInt64, Option.all_some, hbetter,
      Bool.false_eq_true, if_false]
    by_cases hlt : key n < key m
    · obtain ⟨r, hr, hleast⟩ := ih n
      exact ⟨r, by rw [if_pos hlt, hr], hleast.cons_of_lt hlt⟩
    · obtain ⟨r, hr, hleast⟩ := ih m
      exact ⟨r, by rw [if_neg hlt, hr], hleast.cons_of_le (not_lt.mp hlt)⟩

theorem best_ints (hbetter : ∀ a b : Int64,
      better (Number.ofInt64 a) (Number.ofInt64 b) = true ↔ key a < key b)
    (empty : Value) {ns : List Int64} (hns : ns ≠ []) :
    ∃ r, best better empty none (ns.map .int) = .int r ∧ IsFirstLeast key r ns := by
  cases ns with
  | nil => exact absurd rfl hns
  | cons n ns =>
    have hnumber : (Value.int n).toNumber = Number.ofInt64 n := rfl
    simp only [List.map_cons, best, hnumber, Number.isNaN_ofInt64, Option.all_none, if_true,
      Bool.false_eq_true, if_false]
    exact best_ints_from hbetter empty n ns

end Builtin

namespace Evaluation

theorem evalIn_call_of_ok {env : Env} (soft : Bool) {name : String} {f : Function}
    {run : Context → List Value → Except EvalError Value} {arguments : List Expr} {calls : List Call}
    {vs : List Value} (hget : env.functions.get? name = some f) (hbody : f.body = .computed run)
    (harguments : walkAll env arguments = ⟨calls, .ok vs⟩) :
    evalIn env soft (.call name arguments) = ⟨calls, run env.context vs⟩ := by
  have happly : f.apply env.host env.context vs = ⟨[], run env.context vs⟩ := by
    rw [Function.apply, hbody]
    rfl
  rw [evalIn, settle, walk, hget]
  dsimp only
  rw [harguments, bind_assoc, Outcome.bind_of_ok (x := ⟨calls, .ok vs⟩) rfl, happly]
  cases run env.context vs <;> exact congrArg (Outcome.mk · _) (List.append_nil calls)

theorem evalIn_best_ints {env : Env} (soft : Bool) {name : String} {f : Function}
    {better : Float → Float → Bool} {empty : Value} {key : Int64 → Int} {arguments : List Expr}
    {calls : List Call} {ns : List Int64} (hns : ns ≠ [])
    (hget : env.functions.get? name = some f)
    (hbody : f.body = .computed fun _ vs => .ok (Builtin.best better empty none vs))
    (hbetter : ∀ a b : Int64, better (Number.ofInt64 a) (Number.ofInt64 b) = true ↔ key a < key b)
    (harguments : walkAll env arguments = ⟨calls, .ok (ns.map .int)⟩) :
    ∃ r, evalIn env soft (.call name arguments) = ⟨calls, .ok (.int r)⟩ ∧ IsFirstLeast key r ns := by
  obtain ⟨r, hr, hleast⟩ := Builtin.best_ints hbetter empty hns
  exact ⟨r, by rw [evalIn_call_of_ok soft hget hbody harguments, hr], hleast⟩

/-- Comparisons of whole numbers do what their names say on what they see of the numbers, and they are
right about the numbers themselves just if these are told apart: as are numbers of up to 53 bits and
numbers more than 1024 apart. The order is never reversed. `min` and `max` give the first of the
numbers whose floats are the least or the greatest. -/
theorem evalIn_comparison_ints (env : Env) (soft : Bool) :
    (∀ {op : BinaryOp} {left right : Expr} {leftCalls rightCalls : List Call} {a b : Int64},
      op.isComparison = true →
      evalIn env false left = ⟨leftCalls, .ok (.int a)⟩ →
      evalIn env false right = ⟨rightCalls, .ok (.int b)⟩ →
      evalIn env soft (.binary op left right) = ⟨leftCalls ++ rightCalls,
        .ok (.bool (op.holds (op.view a.toInt) (op.view b.toInt)))⟩) ∧
    (∀ a b : Int64,
      (∀ op : BinaryOp, op.isComparison = true →
        op.holds (op.view a.toInt) (op.view b.toInt) = op.holds a.toInt b.toInt) ↔
      Number.ToldApart a.toInt b.toInt) ∧
    (∀ a b : Int64, a.toInt.natAbs ≤ 2 ^ 53 ∧ b.toInt.natAbs ≤ 2 ^ 53 ∨
      1024 < (a.toInt - b.toInt).natAbs → Number.ToldApart a.toInt b.toInt) ∧
    (∀ a b : Int64, a ≤ b → Number.rounded a.toInt ≤ Number.rounded b.toInt) ∧
    ∀ {arguments : List Expr} {calls : List Call} {ns : List Int64}, ns ≠ [] →
      walkAll env arguments = ⟨calls, .ok (ns.map .int)⟩ →
      (env.functions.get? "min" = some Builtin.min →
        ∃ r, evalIn env soft (.call "min" arguments) = ⟨calls, .ok (.int r)⟩ ∧
          IsFirstLeast (fun n => Number.rounded n.toInt) r ns ∧
          ((∀ n ∈ ns, Number.ToldApart r.toInt n.toInt) → ∀ n ∈ ns, r ≤ n)) ∧
      (env.functions.get? "max" = some Builtin.max →
        ∃ r, evalIn env soft (.call "max" arguments) = ⟨calls, .ok (.int r)⟩ ∧
          IsFirstLeast (fun n => -Number.rounded n.toInt) r ns ∧
          ((∀ n ∈ ns, Number.ToldApart r.toInt n.toInt) → ∀ n ∈ ns, n ≤ r)) := by
  refine ⟨@fun op _ _ _ _ _ _ hop hleft hright => ?_, fun a b => BinaryOp.holds_view_iff _ _, ?_, ?_, ?_⟩
  · have hstrict : op.shortCircuits = false := by
      cases op <;> first | rfl | cases hop
    rw [evalIn_binary_of_ok hstrict soft hleft hright, Operation.binary_comparison_ints hop]
  · rintro a b (⟨ha, hb⟩ | hab)
    · exact Number.toldApart_of_natAbs_le ha hb
    · exact Number.toldApart_of_lt_natAbs_sub (Number.natAbs_toInt_le a) (Number.natAbs_toInt_le b) hab
  · exact fun a b hab => Number.rounded_mono (Int64.le_iff_toInt_le.mp hab)
  · intro arguments calls ns hns harguments
    refine ⟨fun hget => ?_, fun hget => ?_⟩
    · have hbetter (a b : Int64) : decide (Number.ofInt64 a < Number.ofInt64 b) = true ↔
          Number.rounded a.toInt < Number.rounded b.toInt :=
        decide_eq_true_iff.trans Number.ofInt64_lt_iff
      obtain ⟨r, hr, hleast⟩ := evalIn_best_ints soft hns hget rfl hbetter harguments
      refine ⟨r, hr, hleast, fun hapart n hn => Int64.le_iff_toInt_le.mpr ?_⟩
      exact (hapart n hn).le_iff.mp (hleast.key_le hn)
    · have hbetter (a b : Int64) : decide (Number.ofInt64 a > Number.ofInt64 b) = true ↔
          -Number.rounded a.toInt < -Number.rounded b.toInt :=
        decide_eq_true_iff.trans (Number.ofInt64_lt_iff.trans neg_lt_neg_iff.symm)
      obtain ⟨r, hr, hleast⟩ := evalIn_best_ints soft hns hget rfl hbetter harguments
      refine ⟨r, hr, hleast, fun hapart n hn => Int64.le_iff_toInt_le.mpr ?_⟩
      exact (hapart n hn).symm.le_iff.mp (neg_le_neg_iff.mp (hleast.key_le hn))

/-- Two numbers near the limit that are far enough apart, and the least of three numbers. -/
theorem evalIn_comparison_ints_sample :
    let number (n : Int64) : Expr := .literal (.int n)
    evalIn (echoing []) false
        (.binary .less (number 9223372036854774000) (number 9223372036854775807)) =
      ⟨[], .ok (.bool true)⟩ ∧
    evalIn (echoing []) false (.call "min" [number 3, number (-1), number 2]) =
      ⟨[], .ok (.int (-1))⟩ := by
  intro number
  have hnumber (n : Int64) : evalIn (echoing []) false (number n) = ⟨[], .ok (.int n)⟩ := rfl
  obtain ⟨hcompare, hright, hapart, -, hextremum⟩ := evalIn_comparison_ints (echoing []) false
  constructor
  · have hless : BinaryOp.less.isComparison = true := rfl
    rw [hcompare hless (hnumber _) (hnumber _),
      (hright 9223372036854774000 9223372036854775807).mpr (hapart _ _ (.inr (by decide))) .less hless]
    rfl
  · have harguments : walkAll (echoing []) [number 3, number (-1), number 2] =
        ⟨[], .ok ([3, -1, 2].map .int)⟩ := rfl
    obtain ⟨r, hr, hfirst, hleast⟩ := (hextremum (by decide) harguments).1 rfl
    have hsmall : ∀ n ∈ ([3, -1, 2] : List Int64), n.toInt.natAbs ≤ 2 ^ 53 := by
      simp
    have hle : r ≤ -1 :=
      hleast (fun n hn => hapart r n (.inl ⟨hsmall r hfirst.mem, hsmall n hn⟩)) (-1) (by simp)
    have hmember : r = 3 ∨ r = -1 ∨ r = 2 := by simpa using hfirst.mem
    rcases hmember with rfl | rfl | rfl
    · exact absurd hle (by decide)
    · exact hr
    · exact absurd hle (by decide)

/-- Numbers that differ by one: they are not identical, but they are equal, the larger one is not
greater, and it counts as the least. -/
theorem evalIn_comparison_close :
    let larger : Expr := .literal (.int 9007199254740993)
    let smaller : Expr := .literal (.int 9007199254740992)
    evalIn (echoing []) false (.binary .identical larger smaller) = ⟨[], .ok (.bool false)⟩ ∧
    evalIn (echoing []) false (.binary .equal larger smaller) = ⟨[], .ok (.bool true)⟩ ∧
    evalIn (echoing []) false (.binary .greater larger smaller) = ⟨[], .ok (.bool false)⟩ ∧
    evalIn (echoing []) false (.call "min" [larger, smaller]) =
      ⟨[], .ok (.int 9007199254740993)⟩ := by
  exact ⟨rfl, rfl, rfl, rfl⟩

end Evaluation
end Formula
