/-! A finite float as a sign, a natural significand and a power of two, and the way back. Whole
parts, remainders and decimal digits are computed exactly on this form. -/

namespace Formula.Number

/-- The leading bit of a full significand, which is not stored. The fraction lies below it. -/
def leadingBit : Nat := 0x10000000000000

def signBit : Nat := 0x8000000000000000

/-- The number `± significand · 2 ^ exponent`. -/
structure Binary where
  negative : Bool
  significand : Nat
  exponent : Int
deriving DecidableEq, Repr

namespace Binary

/-- Reads the fields of a finite float. A biased exponent of zero means the same power of two as a
biased exponent of one, without the leading bit. -/
def ofFloat (x : Float) : Binary :=
  let bits := x.toBits.toNat
  let biased := bits / leadingBit % 0x800
  let fraction := bits % leadingBit
  { negative := bits / signBit == 1
    significand := if biased == 0 then fraction else leadingBit + fraction
    exponent := (max biased 1 : Nat) - 1075 }

/-- The float with this value, for a value that is a float: the significand is shifted to the
exponent at which floats of its size are stored. -/
def toFloat (b : Binary) : Float :=
  let stored := max (b.exponent + b.significand.log2 - 52) (-1074)
  let m :=
    if b.exponent ≤ stored then b.significand >>> (stored - b.exponent).toNat
    else b.significand <<< (b.exponent - stored).toNat
  let magnitude := if m < leadingBit then m else (stored + 1075).toNat * leadingBit + (m - leadingBit)
  Float.ofBits (UInt64.ofNat (if b.negative then signBit + magnitude else magnitude))

/-- The whole part of the magnitude. -/
def floor (b : Binary) : Nat :=
  if 0 ≤ b.exponent then b.significand <<< b.exponent.toNat
  else b.significand >>> (-b.exponent).toNat

def isWhole (b : Binary) : Bool :=
  0 ≤ b.exponent || b.significand % (1 <<< (-b.exponent).toNat) == 0

/-- Rounded toward zero. -/
def truncate (b : Binary) : Int :=
  if b.negative then -b.floor else b.floor

/-- The remainder of the division that rounds its quotient toward zero, with the sign of the
dividend. Both sides are brought to the smaller power of two, so that no bit is lost. -/
def rem (a b : Binary) : Binary :=
  let exponent := min a.exponent b.exponent
  let m := a.significand <<< (a.exponent - exponent).toNat
  let n := b.significand <<< (b.exponent - exponent).toNat
  { negative := a.negative, significand := m % n, exponent }

end Binary

/-- Whether a float is finite and has no fraction. -/
def isWhole (x : Float) : Bool := x.isFinite && (Binary.ofFloat x).isWhole

/-- A finite float rounded toward zero. -/
def truncate (x : Float) : Int := (Binary.ofFloat x).truncate

/-- The float remainder that keeps the sign of the dividend. -/
def remainder (a b : Float) : Float :=
  if a.isNaN || b.isNaN || a.isInf || b == 0.0 then 0.0 / 0.0
  else if b.isInf then a
  else ((Binary.ofFloat a).rem (Binary.ofFloat b)).toFloat

end Formula.Number
