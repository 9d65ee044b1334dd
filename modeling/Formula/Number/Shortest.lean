import Formula.Number.Binary

/-! The shortest decimal that reads back as a given float: of all decimals inside the interval of
reals that round to it, one with the fewest digits, and of these one nearest to it. -/

namespace Formula.Number

/-- The number `significand · 10 ^ exponent`. -/
structure Decimal where
  significand : Nat
  exponent : Int
deriving DecidableEq, Repr

/-- What is chosen when the two neighbours on a decimal grid are equally near. -/
inductive Tie
  | up
  | even
deriving DecidableEq, Repr

namespace Shortest

/-- A positive real `value / unit` and the bounds `low / unit`, `high / unit` of the reals that
round to it. -/
structure Target where
  value : Nat
  low : Nat
  high : Nat
  unit : Nat
  closed : Bool
deriving Repr

/-- The bounds lie half a step away; below the least significand of a power of two the steps are
half as wide. The bounds themselves round to an even significand. -/
def target (b : Binary) : Target :=
  let m := 4 * b.significand
  let low := if b.significand == leadingBit && b.exponent != -1074 then m - 1 else m - 2
  let scale := if 2 ≤ b.exponent then 1 <<< (b.exponent - 2).toNat else 1
  { value := m * scale, low := low * scale, high := (m + 2) * scale
    unit := if 2 ≤ b.exponent then 1 else 1 <<< (2 - b.exponent).toNat
    closed := b.significand % 2 == 0 }

/-- Whether `n / d` is at least ten to the `k`. -/
def reaches (n d : Nat) (k : Int) : Bool :=
  if 0 ≤ k then d * Nat.pow 10 k.toNat ≤ n else d ≤ n * Nat.pow 10 (-k).toNat

/-- Raises `k` while ten to the next power is still reached, at most `fuel` times. -/
def raise (n d : Nat) : Nat → Int → Int
  | 0, k => k
  | fuel + 1, k => if reaches n d (k + 1) then raise n d fuel (k + 1) else k

/-- The power of ten of the leading digit of `n / d`, from the difference of the bit lengths; the
first guess is low by two at most. -/
def decade (n d : Nat) : Int :=
  let bits : Int := n.log2 - d.log2 - 1
  raise n d 4 (Int.fdiv (bits * 301029) 1000000 - 1)

def Target.holds (t : Target) (n d : Nat) : Bool :=
  if t.closed then t.low * d ≤ n * t.unit && n * t.unit ≤ t.high * d
  else t.low * d < n * t.unit && n * t.unit < t.high * d

/-- The nearer of the two neighbours on the grid of step `10 ^ k` that lie inside the interval. -/
def Target.onGrid (t : Target) (tie : Tie) (k : Int) : Option Decimal :=
  let up := Nat.pow 10 k.toNat
  let down := Nat.pow 10 (-k).toNat
  let n := t.value * down
  let d := t.unit * up
  let below := n / d
  let twice := 2 * (n % d)
  let lowFits := t.holds (below * up) down
  let highFits := t.holds ((below + 1) * up) down
  let preferHigh := twice > d || (twice == d && (tie == .up || below % 2 == 1))
  if lowFits && !(highFits && preferHigh) then some ⟨below, k⟩
  else if highFits then some ⟨below + 1, k⟩
  else none

/-- The first hit on finer and finer grids, starting at `10 ^ k`. -/
def Target.search (t : Target) (tie : Tie) : Nat → Int → Decimal
  | 0, k => ⟨t.value * Nat.pow 10 (-k).toNat / (t.unit * Nat.pow 10 k.toNat), k⟩
  | fuel + 1, k => (t.onGrid tie k).getD (t.search tie fuel (k - 1))

end Shortest

/-- The shortest decimal of a float that is neither zero nor infinite nor a NaN, its sign aside.
Seventeen digits always read back. -/
def shortest (tie : Tie) (x : Float) : Decimal :=
  let t := Shortest.target (Binary.ofFloat x)
  t.search tie 17 (Shortest.decade t.value t.unit)

/-- The digits of the significand without trailing zeros, and the power of ten of the first. -/
def Decimal.digits (d : Decimal) : List Char × Int :=
  let ds := Nat.toDigits 10 d.significand
  ((ds.reverse.dropWhile (· == '0')).reverse, d.exponent + ds.length - 1)

end Formula.Number
