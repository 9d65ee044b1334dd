import Formula.Number.Shortest

/-! The text of a float: as the language shows numbers, and as data files write them. Both show the
shortest decimal; they differ in where positional notation ends and in how whole numbers look. -/

namespace Formula.Number

/-- Digits with the point after the place of `10 ^ 0`, where `exponent` is the place of the first
digit. A whole number has no point. -/
def positional (digits : List Char) (exponent : Int) : List Char :=
  if exponent < 0 then
    '0' :: '.' :: (List.replicate (-exponent - 1).toNat '0' ++ digits)
  else
    let whole := exponent.toNat + 1
    if digits.length ≤ whole then digits ++ List.replicate (whole - digits.length) '0'
    else digits.take whole ++ '.' :: digits.drop whole

/-- One digit, the others after a point if there are any, and the power of ten with its sign. -/
def scientific (digits : List Char) (exponent : Int) : List Char :=
  let mantissa := match digits with
    | d :: e :: ds => d :: '.' :: e :: ds
    | ds => ds
  let sign := if exponent < 0 then '-' else '+'
  mantissa ++ 'e' :: sign :: Nat.toDigits 10 exponent.natAbs

def signed (negative : Bool) (text : List Char) : String :=
  String.ofList (if negative then '-' :: text else text)

/-- How the language shows a float: a whole number below `10 ^ 21` by all its digits and zero
without a sign, other numbers by their shortest decimal, positional from `10 ^ -6`. -/
def text (x : Float) : String :=
  if x.isNaN then "NaN"
  else if x.isInf then (if x > 0.0 then "Infinity" else "-Infinity")
  else if isWhole x && x.abs < 1e21 then toString (truncate x)
  else
    let (digits, exponent) := (shortest .up x).digits
    signed (x < 0.0)
      (if -7 < exponent && exponent < 21 then positional digits exponent
       else scientific digits exponent)

/-- How data files write a finite float: always with a fraction or a power of ten, and positional
from `10 ^ -5` to below `10 ^ 16`. -/
def dataText (x : Float) : String :=
  let negative := (Binary.ofFloat x).negative
  if x == 0.0 then signed negative ['0', '.', '0']
  else
    let (digits, exponent) := (shortest .even x).digits
    if -6 < exponent && exponent < 16 then
      let body := positional digits exponent
      signed negative (if body.contains '.' then body else body ++ ['.', '0'])
    else signed negative (scientific digits exponent)

end Formula.Number
