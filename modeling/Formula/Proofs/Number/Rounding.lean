import Mathlib
import Formula.Value.Conversion

/-! Whole numbers as floats. A float has 53 significant bits, so that a larger number becomes the nearest
one that ends in zeros, and floats are ordered as the numbers they stand for. -/

namespace Formula.Number

/-- The quotient rounded to the nearest whole number, ties to the even one. -/
def nearestQuotient (n unit : Nat) : Nat :=
  let r := n % unit
  if 2 * r < unit then n / unit
  else if 2 * r = unit then n / unit + n / unit % 2
  else n / unit + 1

section Quotient

variable {m n unit : Nat}

theorem nearestQuotient_one (n : Nat) : nearestQuotient n 1 = n := by
  simp [nearestQuotient, Nat.mod_one]

theorem nearestQuotient_bounds : n / unit ≤ nearestQuotient n unit ∧
    nearestQuotient n unit ≤ n / unit + 1 := by
  simp only [nearestQuotient]
  split
  · omega
  · split <;> omega

theorem nearestQuotient_mono (hmn : m ≤ n) : nearestQuotient m unit ≤ nearestQuotient n unit := by
  have hquotient : m / unit ≤ n / unit := Nat.div_le_div_right hmn
  rcases hquotient.lt_or_eq with hlt | heq
  · calc nearestQuotient m unit ≤ m / unit + 1 := nearestQuotient_bounds.2
      _ ≤ n / unit := hlt
      _ ≤ nearestQuotient n unit := nearestQuotient_bounds.1
  · have hrest : m % unit ≤ n % unit := by
      have hm := Nat.div_add_mod m unit
      have hn := Nat.div_add_mod n unit
      rw [heq] at hm
      omega
    simp only [nearestQuotient, heq]
    split <;> split <;> (try split) <;> (try split) <;> omega

theorem nearestQuotient_mul_near (hunit : 0 < unit) :
    2 * (nearestQuotient n unit * unit) ≤ 2 * n + unit ∧
      2 * n ≤ 2 * (nearestQuotient n unit * unit) + unit := by
  have hrest : n % unit < unit := Nat.mod_lt n hunit
  have hn : n = n / unit * unit + n % unit := by rw [mul_comm, Nat.div_add_mod]
  have hnext : (n / unit + 1) * unit = n / unit * unit + unit := Nat.succ_mul _ _
  simp only [nearestQuotient]
  split
  · omega
  · split
    · rcases Nat.mod_two_eq_zero_or_one (n / unit) with heven | hodd
      · rw [heven, Nat.add_zero]
        omega
      · rw [hodd]
        omega
    · omega

end Quotient

open Float.Model Float.Model.UnpackedFloat

/-- After `k` bits are shifted out there is the quotient with its next bit and a note of whether any
bit below that is set. -/
theorem shiftRight_exact (n k : Nat) : (⟨n, false, false⟩ : ExtendedMantissa) >>> k =
    ⟨n / 2 ^ k, decide (2 ^ k ≤ 2 * (n % 2 ^ k)), decide (2 * (n % 2 ^ k) % 2 ^ k ≠ 0)⟩ := by
  show k.repeat ExtendedMantissa.shiftRightOne _ = _
  induction k with
  | zero => simp [Nat.repeat, Nat.mod_one]
  | succ k ih =>
    have hrest : n % 2 ^ k < 2 ^ k := Nat.mod_lt _ (Nat.two_pow_pos k)
    have hmod : n % 2 ^ (k + 1) = n % 2 ^ k + 2 ^ k * (n / 2 ^ k % 2) := by
      rw [Nat.pow_succ, Nat.mod_mul]
    have hdiv : n / 2 ^ (k + 1) = n / 2 ^ k / 2 := by
      rw [Nat.pow_succ, Nat.div_div_eq_div_mul]
    rw [Nat.repeat, ih, ExtendedMantissa.shiftRightOne, hdiv, hmod, Nat.pow_succ]
    generalize 2 ^ k = unit at hrest ⊢
    generalize n % unit = r at hrest ⊢
    -- The lowest bit becomes the round bit, and the old round bit is noted with those below.
    congr 1
    · rcases Nat.mod_two_eq_zero_or_one (n / unit) with hbit | hbit
      · simp [hbit]
        omega
      · simp [hbit]
        omega
    · have hlow : 2 * (r + unit * (n / unit % 2)) % (unit * 2) = 2 * r := by
        rw [mul_add, show 2 * (unit * (n / unit % 2)) = unit * 2 * (n / unit % 2) by ring,
          Nat.add_mul_mod_self_left, Nat.mod_eq_of_lt (by omega)]
      rw [hlow, ← Bool.decide_or, decide_eq_decide]
      by_cases hhalf : 2 * r < unit
      · rw [Nat.mod_eq_of_lt hhalf]
        omega
      · omega

theorem roundedMantissa_shiftRight (n k : Nat) :
    ((⟨n, false, false⟩ : ExtendedMantissa) >>> k).roundedMantissa = nearestQuotient n (2 ^ k) := by
  have hrest : n % 2 ^ k < 2 ^ k := Nat.mod_lt _ (Nat.two_pow_pos k)
  rw [shiftRight_exact, nearestQuotient, ExtendedMantissa.roundedMantissa]
  generalize 2 ^ k = unit at hrest ⊢
  by_cases hless : 2 * (n % unit) < unit
  · have hround : ¬unit ≤ 2 * (n % unit) := by omega
    rw [if_pos hless, decide_eq_false hround]
    cases decide (2 * (n % unit) % unit ≠ 0) <;> rfl
  · have hround : unit ≤ 2 * (n % unit) := by omega
    have hlow : 2 * (n % unit) % unit = 2 * (n % unit) - unit := by
      rw [Nat.mod_eq_sub_mod hround, Nat.mod_eq_of_lt (by omega)]
    rw [if_neg hless, decide_eq_true hround, hlow]
    by_cases htie : 2 * (n % unit) = unit
    · rw [if_pos htie, htie, Nat.sub_self]
      rfl
    · have hsticky : 2 * (n % unit) - unit ≠ 0 := by omega
      rw [if_neg htie, decide_eq_true hsticky]
      rfl

/-- In a mantissa that fills the places of a float, or more, the excess bits are shifted out. -/
theorem shiftToTargetExponent_of_full {m : Nat} {e : Int} (hm : 52 ≤ m.log2) (he : -1000 ≤ e) :
    shiftToTargetExponent Format.binary64 m e .exact =
      ((⟨m, false, false⟩ : ExtendedMantissa) >>> (m.log2 - 52), e + (m.log2 - 52 : Nat)) := by
  have htarget : Format.binary64.targetExponent (totalExponent m e) = m.log2 - 52 + e := by
    show max ((m.log2 + 1 + e : Int) - 53) (-1074) = _
    omega
  have hamount : (Format.binary64.targetExponent (totalExponent m e) - e).toNat = m.log2 - 52 := by
    rw [htarget]
    omega
  simp only [shiftToTargetExponent, shiftToExponent, hamount]
  rfl

theorem log2_eq_of_bounds {m k : Nat} (hlow : 2 ^ k ≤ m) (hhigh : m < 2 ^ (k + 1)) : m.log2 = k := by
  have hm : m ≠ 0 := (Nat.two_pow_pos k |>.trans_le hlow).ne'
  exact (Nat.log2_eq_iff hm).mpr ⟨hlow, hhigh⟩

theorem log2_shiftLeft {n : Nat} (hn : n ≠ 0) (k : Nat) : (n <<< k).log2 = n.log2 + k := by
  rw [Nat.shiftLeft_eq]
  refine log2_eq_of_bounds ?_ ?_
  · rw [Nat.pow_add]
    exact Nat.mul_le_mul_right _ (Nat.log2_self_le hn)
  · rw [Nat.add_right_comm, Nat.pow_add]
    exact Nat.mul_lt_mul_of_pos_right Nat.lt_log2_self (Nat.two_pow_pos _)

theorem nearestQuotient_bounds_of_full {n : Nat} (hn : 52 ≤ n.log2) :
    2 ^ 52 ≤ nearestQuotient n (2 ^ (n.log2 - 52)) ∧
      nearestQuotient n (2 ^ (n.log2 - 52)) ≤ 2 ^ 53 := by
  have hpos : n ≠ 0 := by
    rintro rfl
    exact absurd hn (by decide)
  have hlow : 2 ^ 52 ≤ n / 2 ^ (n.log2 - 52) := by
    rw [Nat.le_div_iff_mul_le (Nat.two_pow_pos _), ← Nat.pow_add, Nat.add_sub_cancel' hn]
    exact Nat.log2_self_le hpos
  have hhigh : n / 2 ^ (n.log2 - 52) < 2 ^ 53 := by
    rw [Nat.div_lt_iff_lt_mul (Nat.two_pow_pos _), ← Nat.pow_add]
    exact Nat.lt_log2_self.trans_le (Nat.pow_le_pow_right Nat.two_pos (by omega))
  exact ⟨hlow.trans nearestQuotient_bounds.1, nearestQuotient_bounds.2.trans hhigh⟩

/-- Rounding may carry into one bit more; then all bits but the leading one are zero. -/
theorem exists_carry {q : Nat} (hlow : 2 ^ 52 ≤ q) (hhigh : q ≤ 2 ^ 53) :
    ∃ j, j ≤ 1 ∧ q.log2 = 52 + j ∧ q / 2 ^ j * 2 ^ j = q ∧ 2 ^ 52 ≤ q / 2 ^ j ∧ q / 2 ^ j < 2 ^ 53 := by
  rcases hhigh.lt_or_eq with hlt | rfl
  · exact ⟨0, zero_le_one, log2_eq_of_bounds hlow hlt, by simp, by simpa using hlow, by simpa using hlt⟩
  · exact ⟨1, le_rfl, log2_eq_of_bounds le_rfl (by norm_num), by norm_num, by norm_num, by norm_num⟩

theorem roundWithAccuracy_of_full (s : Sign) {n : Nat} {e : Int} (hn : 52 ≤ n.log2)
    (he : -1000 ≤ e) :
    ∃ (m j : Nat) (h : 0 < m),
      roundWithAccuracy Format.binary64 s n e .exact =
        .finite s m (e + (n.log2 - 52 : Nat) + j) h ∧
      2 ^ 52 ≤ m ∧ m < 2 ^ 53 ∧ j ≤ 1 ∧
      m * 2 ^ j = nearestQuotient n (2 ^ (n.log2 - 52)) := by
  obtain ⟨hlow, hhigh⟩ := nearestQuotient_bounds_of_full hn
  obtain ⟨j, hj, hlog, hexact, hmlow, hmhigh⟩ := exists_carry hlow hhigh
  have hpos := (Nat.two_pow_pos 52).trans_le hmlow
  refine ⟨_, j, hpos, ?_, hmlow, hmhigh, hj, hexact⟩
  -- The mantissa is shifted a second time, now that it is rounded.
  have hcarry := shiftToTargetExponent_of_full (e := e + (n.log2 - 52 : Nat))
    (hlog ▸ Nat.le_add_right 52 j) (by omega)
  rw [hlog, Nat.add_sub_cancel_left, shiftRight_exact] at hcarry
  simp only [roundWithAccuracy, shiftToTargetExponent_of_full hn he, roundedMantissa_shiftRight,
    hcarry, hpos.ne', dif_neg, not_false_eq_true]

/-- The nearest natural number with 53 significant bits and zeros behind them, of two the one whose
53 bits end in zero. -/
def roundedNat (n : Nat) : Nat :=
  nearestQuotient n (2 ^ (n.log2 - 52)) * 2 ^ (n.log2 - 52)

/-- The mantissa fills its places, and with the exponent, here 52 larger, it makes `n`. -/
structure IsFull (m i n : Nat) : Prop where
  low : 2 ^ 52 ≤ m
  high : m < 2 ^ 53
  small : i ≤ 64
  eq : m * 2 ^ i = n * 2 ^ 52

/-- A smaller number is shifted up until it fills the mantissa, which loses nothing. -/
theorem nearestQuotient_shiftLeft (n : Nat) :
    nearestQuotient (n <<< (52 - n.log2)) (2 ^ (n.log2 + (52 - n.log2) - 52)) * 2 ^ n.log2 =
      roundedNat n * 2 ^ 52 := by
  rw [roundedNat, mul_assoc, ← Nat.pow_add]
  rcases le_total n.log2 52 with hle | hge
  · rw [Nat.add_sub_cancel' hle, Nat.sub_self, Nat.sub_eq_zero_of_le hle, Nat.zero_add, pow_zero,
      nearestQuotient_one, nearestQuotient_one, Nat.shiftLeft_eq, mul_assoc, ← Nat.pow_add,
      Nat.sub_add_cancel hle]
  · rw [Nat.sub_eq_zero_of_le hge, Nat.shiftLeft_zero, Nat.add_zero, Nat.sub_add_cancel hge]

theorem round_nat (s : Sign) {n : Nat} (hpos : 0 < n) (hsmall : n < 2 ^ 64) :
    ∃ (m i : Nat) (h : 0 < m),
      UnpackedFloat.round Format.binary64 s n 0 = .finite s m (i - 52) h ∧ IsFull m i (roundedNat n) := by
  have hlog : n.log2 < 64 := (Nat.log2_lt hpos.ne').mpr hsmall
  have hamount : (0 - Format.binary64.targetExponent (totalExponent n 0)).toNat = 52 - n.log2 := by
    show (0 - max ((n.log2 + 1 + 0 : Int) - 53) (-1074)).toNat = _
    omega
  have hshifted := log2_shiftLeft hpos.ne' (52 - n.log2)
  obtain ⟨m, j, h, hround, hlow, hhigh, hj, hm⟩ :=
    roundWithAccuracy_of_full s (n := n <<< (52 - n.log2)) (e := 0 - (52 - n.log2 : Nat))
      (by omega) (by omega)
  refine ⟨m, n.log2 + j, h, ?_, hlow, hhigh, by omega, ?_⟩
  · simp only [UnpackedFloat.round, decreaseExponent, hamount, hround]
    congr 1
    omega
  · rw [← nearestQuotient_shiftLeft, ← hshifted, ← hm, mul_assoc, ← Nat.pow_add, Nat.add_comm j]

theorem ofBitVec_unpackSign_packComponents (s : Sign) (e : BitVec 11) (m : BitVec 52) :
    Sign.ofBitVec (unpackSign (packComponents Format.binary64 s e m)) = s := by
  simp only [unpackSign, packComponents, BitVec.extractLsb]
  rw [BitVec.extractLsb'_append_eq_of_le (by decide), BitVec.extractLsb'_append_eq_of_le (by decide)]
  cases s <;> rfl

namespace IsFull

variable {m m' i i' n n' : Nat}

/-- The leading bit of the mantissa is not stored, and the exponent is stored with a bias. -/
theorem pack_eq (h : IsFull m i n) (s : Sign) (hpos : 0 < m) :
    UnpackedFloat.pack Format.binary64 (.finite s m (i - 52) hpos) =
      packComponents Format.binary64 s (BitVec.ofNat 11 (i + 1023)) (BitVec.ofNat 52 m) := by
  have hlog : m.log2 = 52 := log2_eq_of_bounds h.low h.high
  have hbiased : ((i - 52 : Int) + Format.binary64.exponentBias +
      Format.binary64.mantissaBitsWithoutImplicit).toNat = i + 1023 := by
    show ((i - 52 : Int) + 1023 + 52).toNat = _
    omega
  have hfinite : ¬2 ^ 11 ≤ i + 1023 + 1 := by
    have := h.small
    omega
  simp only [UnpackedFloat.pack, hbiased, hlog, hfinite, if_false]
  rfl

theorem unpack_pack (h : IsFull m i n) (s : Sign) (hpos : 0 < m) :
    (Float.Model.pack (.finite s m (i - 52) hpos)).unpack = .finite s m (i - 52) hpos := by
  have hsmall := h.small
  have hexponent : (BitVec.ofNat 11 (i + 1023)).toNat = i + 1023 :=
    (BitVec.toNat_ofNat _ _).trans (Nat.mod_eq_of_lt (by omega))
  have hmantissa : (1#1 ++ BitVec.ofNat 52 m).toNat = m := by
    have hlow := h.low
    have hhigh := h.high
    rw [BitVec.toNat_append, ← Nat.shiftLeft_add_eq_or_of_lt (BitVec.ofNat 52 m).isLt,
      BitVec.toNat_ofNat, BitVec.toNat_ofNat, Nat.shiftLeft_eq]
    omega
  -- The least and the largest exponent are kept for zero, infinity and their like.
  have hordinary : BitVec.ofNat 11 (i + 1023) ≠ -1#11 ∧ BitVec.ofNat 11 (i + 1023) ≠ 0#11 := by
    constructor <;> intro heq <;> have := congrArg BitVec.toNat heq <;> simp at this <;> omega
  have hunbiased : ((i + 1023 : Nat) : Int) - (Format.binary64.exponentBias + (52 : Nat)) = i - 52 := by
    have hbias : (Format.binary64.exponentBias : Int) = 1023 := rfl
    omega
  show UnpackedFloat.unpack _ (UnpackedFloat.pack _ _) = _
  simp only [h.pack_eq, UnpackedFloat.unpack, unpackMantissa_packComponents,
    unpackExponent_packComponents, ofBitVec_unpackSign_packComponents, hordinary, if_false, hexponent,
    hmantissa, hunbiased]

theorem pos (h : IsFull m i n) : 0 < n := by
  have hproduct : 0 < m * 2 ^ i :=
    Nat.mul_pos ((Nat.two_pow_pos 52).trans_le h.low) (Nat.two_pow_pos i)
  rw [h.eq] at hproduct
  exact Nat.pos_of_mul_pos_right hproduct

theorem lt_of_exponent_lt (h : IsFull m i n) (h' : IsFull m' i' n') (hi : i < i') : n < n' := by
  refine lt_of_mul_lt_mul_right (a := 2 ^ 52) ?_ (Nat.zero_le _)
  calc n * 2 ^ 52 = m * 2 ^ i := h.eq.symm
    _ < 2 ^ 53 * 2 ^ i := Nat.mul_lt_mul_of_pos_right h.high (Nat.two_pow_pos i)
    _ = 2 ^ 52 * 2 ^ (i + 1) := by ring
    _ ≤ m' * 2 ^ i' := Nat.mul_le_mul h'.low (Nat.pow_le_pow_right Nat.two_pos hi)
    _ = n' * 2 ^ 52 := h'.eq

theorem lt_of_mantissa_lt (h : IsFull m i n) (h' : IsFull m' i n') (hm : m < m') : n < n' := by
  refine lt_of_mul_lt_mul_right (a := 2 ^ 52) ?_ (Nat.zero_le _)
  rw [← h.eq, ← h'.eq]
  exact Nat.mul_lt_mul_of_pos_right hm (Nat.two_pow_pos i)

theorem compare_eq (h : IsFull m i n) (h' : IsFull m' i' n') :
    (compare (i - 52 : Int) (i' - 52)).then (compare m m') = compare (n : Int) n' := by
  rcases lt_trichotomy i i' with hi | rfl | hi
  · have hn := h.lt_of_exponent_lt h' hi
    rw [compare_lt_iff_lt.mpr (show (i - 52 : Int) < i' - 52 by omega),
      compare_lt_iff_lt.mpr (show (n : Int) < n' by omega)]
    rfl
  · rw [compare_eq_iff_eq.mpr rfl, Ordering.then]
    rcases lt_trichotomy m m' with hm | rfl | hm
    · have hn := h.lt_of_mantissa_lt h' hm
      rw [compare_lt_iff_lt.mpr hm, compare_lt_iff_lt.mpr (by omega)]
    · have hn : n = n' := Nat.mul_right_cancel (Nat.two_pow_pos 52) (h.eq.symm.trans h'.eq)
      rw [compare_eq_iff_eq.mpr rfl, compare_eq_iff_eq.mpr (by omega)]
    · have hn := h'.lt_of_mantissa_lt h hm
      rw [compare_gt_iff_gt.mpr hm, compare_gt_iff_gt.mpr (by omega)]
  · have hn := h'.lt_of_exponent_lt h hi
    rw [compare_gt_iff_gt.mpr (show (i' - 52 : Int) < i - 52 by omega),
      compare_gt_iff_gt.mpr (show (n' : Int) < n by omega)]
    rfl

end IsFull

theorem compare_neg_neg (z w : Int) : compare (-z) (-w) = (compare z w).swap := by
  rcases lt_trichotomy z w with h | rfl | h
  · rw [compare_lt_iff_lt.mpr h, compare_gt_iff_gt.mpr (by omega)]
    rfl
  · rw [compare_eq_iff_eq.mpr rfl, compare_eq_iff_eq.mpr rfl]
    rfl
  · rw [compare_gt_iff_gt.mpr h, compare_lt_iff_lt.mpr (by omega)]
    rfl

/-- A float that stands for a whole number. -/
inductive StandsFor : UnpackedFloat → Int → Prop
  | zero (s : Sign) : StandsFor (.zero s) 0
  | finite (s : Sign) {m i n : Nat} (hpos : 0 < m) (h : IsFull m i n) :
      StandsFor (.finite s m (i - 52) hpos) (s.apply n)

namespace StandsFor

variable {u v : UnpackedFloat} {z w : Int}

theorem unpack_pack (h : StandsFor u z) : (Float.Model.pack u).unpack = u := by
  cases h with
  | zero s => cases s <;> rfl
  | finite s hpos h => exact h.unpack_pack s hpos

theorem neg (h : StandsFor u z) : StandsFor u.neg (-z) := by
  cases h with
  | zero s => exact .zero _
  | @finite s m i n hpos h =>
    have happly : -s.apply n = (-s).apply n := by
      cases s with
      | negative => exact neg_neg _
      | positive => rfl
    rw [happly]
    exact .finite _ hpos h

theorem isNaN_eq_false (h : StandsFor u z) : u.isNaN = false := by
  cases h <;> rfl

/-- Floats are ordered as the numbers they stand for. -/
theorem compare_eq (h : StandsFor u z) (h' : StandsFor v w) : u.compare v = some (compare z w) := by
  cases h with
  | zero s =>
    cases h' with
    | zero s' => rfl
    | finite s' hpos' h' =>
      have := h'.pos
      cases s' with
      | negative => exact congrArg some (compare_gt_iff_gt.mpr (by simp [Sign.apply]; omega)).symm
      | positive => exact congrArg some (compare_lt_iff_lt.mpr (by simp [Sign.apply]; omega)).symm
  | finite s hpos h =>
    have := h.pos
    cases h' with
    | zero s' =>
      cases s with
      | negative => exact congrArg some (compare_lt_iff_lt.mpr (by simp [Sign.apply]; omega)).symm
      | positive => exact congrArg some (compare_gt_iff_gt.mpr (by simp [Sign.apply]; omega)).symm
    | finite s' hpos' h' =>
      have := h'.pos
      cases s <;> cases s'
      · exact congrArg some ((congrArg _ (h.compare_eq h')).trans (compare_neg_neg _ _).symm)
      · exact congrArg some (compare_lt_iff_lt.mpr (by simp [Sign.apply]; omega)).symm
      · exact congrArg some (compare_gt_iff_gt.mpr (by simp [Sign.apply]; omega)).symm
      · exact congrArg some (h.compare_eq h')

end StandsFor

section RoundedNat

variable {m n : Nat}

theorem roundedNat_of_lt (hn : n < 2 ^ 53) : roundedNat n = n := by
  have hlog : n.log2 - 52 = 0 := by
    rcases Nat.eq_zero_or_pos n with rfl | hpos
    · rfl
    · have := (Nat.log2_lt hpos.ne').mpr hn
      omega
  rw [roundedNat, hlog, pow_zero, nearestQuotient_one, mul_one]

theorem roundedNat_of_le (hn : n ≤ 2 ^ 53) : roundedNat n = n := by
  rcases hn.lt_or_eq with hlt | rfl
  · exact roundedNat_of_lt hlt
  · decide

theorem roundedNat_bounds (hn : n ≠ 0) : 2 ^ n.log2 ≤ roundedNat n ∧ roundedNat n ≤ 2 ^ (n.log2 + 1) := by
  rcases Nat.lt_or_ge n.log2 52 with hless | hfull
  · have hsmall : n < 2 ^ 53 := (Nat.log2_lt hn).mp (by omega)
    rw [roundedNat_of_lt hsmall]
    exact ⟨Nat.log2_self_le hn, Nat.lt_log2_self.le⟩
  · obtain ⟨hlow, hhigh⟩ := nearestQuotient_bounds_of_full hfull
    have hpow (k : Nat) (hk : 52 ≤ k) : 2 ^ k * 2 ^ (n.log2 - 52) = 2 ^ (n.log2 + (k - 52)) := by
      rw [← Nat.pow_add]
      congr 1
      omega
    constructor
    · exact (hpow 52 le_rfl).symm.le.trans (Nat.mul_le_mul_right _ hlow)
    · exact (Nat.mul_le_mul_right _ hhigh).trans (hpow 53 (by decide)).le

theorem roundedNat_mono (hmn : m ≤ n) : roundedNat m ≤ roundedNat n := by
  rcases Nat.eq_zero_or_pos m with rfl | hm
  · exact Nat.zero_le _
  · have hn : n ≠ 0 := by omega
    -- Numbers of different lengths are rounded to different sides of a power of two, or to it.
    rcases lt_trichotomy m.log2 n.log2 with hlt | heq | hgt
    · calc roundedNat m ≤ 2 ^ (m.log2 + 1) := (roundedNat_bounds hm.ne').2
        _ ≤ 2 ^ n.log2 := Nat.pow_le_pow_right Nat.two_pos hlt
        _ ≤ roundedNat n := (roundedNat_bounds hn).1
    · rw [roundedNat, roundedNat, heq]
      exact Nat.mul_le_mul_right _ (nearestQuotient_mono hmn)
    · have hlow := (Nat.le_log2 hm.ne').mp hgt
      have hhigh := Nat.lt_log2_self (n := n)
      exact absurd (hlow.trans hmn) hhigh.not_ge

/-- Up to 64 bits the distance is at most 512. -/
theorem roundedNat_near (hn : n ≤ 2 ^ 63) : roundedNat n ≤ n + 512 ∧ n ≤ roundedNat n + 512 := by
  rcases hn.lt_or_eq with hlt | rfl
  · have hlog : n.log2 - 52 ≤ 10 := by
      rcases Nat.eq_zero_or_pos n with rfl | hpos
      · decide
      · have := (Nat.log2_lt hpos.ne').mpr hlt
        omega
    have hunit : 2 ^ (n.log2 - 52) ≤ 2 ^ 10 := Nat.pow_le_pow_right Nat.two_pos hlog
    have := nearestQuotient_mul_near (n := n) (Nat.two_pow_pos (n.log2 - 52))
    rw [roundedNat]
    omega
  · decide

end RoundedNat

/-- The whole number that the float nearest to `n` stands for. -/
def rounded (n : Int) : Int := n.sign * roundedNat n.natAbs

theorem rounded_of_nonneg {n : Int} (hn : 0 ≤ n) : rounded n = roundedNat n.natAbs := by
  rcases hn.eq_or_lt with rfl | hpos
  · rfl
  · rw [rounded, Int.sign_eq_one_of_pos hpos, one_mul]

theorem rounded_of_nonpos {n : Int} (hn : n ≤ 0) : rounded n = -roundedNat n.natAbs := by
  rcases hn.eq_or_lt with rfl | hneg
  · rfl
  · rw [rounded, Int.sign_eq_neg_one_of_neg hneg, neg_one_mul]

theorem rounded_of_natAbs_le {n : Int} (hn : n.natAbs ≤ 2 ^ 53) : rounded n = n := by
  rw [rounded, roundedNat_of_le hn, Int.sign_mul_natAbs]

theorem rounded_mono {a b : Int} (hab : a ≤ b) : rounded a ≤ rounded b := by
  rcases le_total 0 a with ha | ha
  · rw [rounded_of_nonneg ha, rounded_of_nonneg (ha.trans hab)]
    exact Int.ofNat_le.mpr (roundedNat_mono (by omega))
  · rcases le_total 0 b with hb | hb
    · rw [rounded_of_nonpos ha, rounded_of_nonneg hb]
      omega
    · rw [rounded_of_nonpos ha, rounded_of_nonpos hb]
      exact neg_le_neg (Int.ofNat_le.mpr (roundedNat_mono (by omega)))

theorem rounded_near {n : Int} (hn : n.natAbs ≤ 2 ^ 63) : rounded n ≤ n + 512 ∧ n ≤ rounded n + 512 := by
  have := roundedNat_near hn
  rcases le_total 0 n with h | h
  · rw [rounded_of_nonneg h]
    omega
  · rw [rounded_of_nonpos h]
    omega

theorem standsFor_toFloat (k : UInt64) : StandsFor k.toFloat.toModel.unpack (roundedNat k.toNat) := by
  show StandsFor (Float.Model.pack (UnpackedFloat.normalize Format.binary64 k.toNat 0 .positive)).unpack _
  rcases Nat.eq_zero_or_pos k.toNat with hzero | hpos
  · rw [hzero]
    exact .zero .positive
  · obtain ⟨m, i, h, hround, hfull⟩ := round_nat .positive hpos k.toNat_lt
    have hgreater : compare (k.toNat : Int) 0 = .gt := compare_gt_iff_gt.mpr (by omega)
    have hstands : StandsFor (.finite .positive m (i - 52) h) (roundedNat k.toNat) :=
      .finite .positive h hfull
    rw [UnpackedFloat.normalize, hgreater]
    show StandsFor (Float.Model.pack (UnpackedFloat.round Format.binary64 _ k.toNat 0)).unpack _
    rw [hround, hstands.unpack_pack]
    exact hstands

theorem natAbs_toInt_le (n : Int64) : n.toInt.natAbs ≤ 2 ^ 63 := by
  have := n.le_toInt
  have := n.toInt_lt
  omega

theorem standsFor_ofInt64 (n : Int64) : StandsFor (ofInt64 n).toModel.unpack (rounded n.toInt) := by
  have hmagnitude := standsFor_toFloat n.toInt.natAbs.toUInt64
  have hfits : n.toInt.natAbs.toUInt64.toNat = n.toInt.natAbs :=
    Nat.mod_eq_of_lt ((natAbs_toInt_le n).trans_lt (by decide))
  rw [hfits] at hmagnitude
  unfold ofInt64
  dsimp only
  split
  · rename_i hneg
    rw [rounded_of_nonpos (Int64.lt_iff_toInt_lt.mp hneg).le]
    show StandsFor (Float.Model.pack _).unpack _
    rw [hmagnitude.neg.unpack_pack]
    exact hmagnitude.neg
  · rename_i hnonneg
    rw [rounded_of_nonneg (Int.not_lt.mp fun h => hnonneg (Int64.lt_iff_toInt_lt.mpr h))]
    exact hmagnitude

section Order

variable {a b : Int64}

theorem ofInt64_lt_iff : ofInt64 a < ofInt64 b ↔ rounded a.toInt < rounded b.toInt := by
  show decide (UnpackedFloat.lt _ _ = true) = true ↔ _
  rw [decide_eq_true_iff, UnpackedFloat.lt, (standsFor_ofInt64 a).compare_eq (standsFor_ofInt64 b)]
  simp [compare_lt_iff_lt]

theorem ofInt64_beq_iff : (ofInt64 a == ofInt64 b) = true ↔ rounded a.toInt = rounded b.toInt := by
  show UnpackedFloat.beq _ _ = true ↔ _
  rw [UnpackedFloat.beq, (standsFor_ofInt64 a).compare_eq (standsFor_ofInt64 b)]
  simp

theorem isNaN_ofInt64 (a : Int64) : (ofInt64 a).isNaN = false :=
  (standsFor_ofInt64 a).isNaN_eq_false

end Order

end Formula.Number
