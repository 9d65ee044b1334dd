import Formula.Text.Blank

/-! Floats read from text: decimals, rounded to the nearest float with ties to the even one, and the
wider forms that a string converts from (signed infinities, and digits after a radix mark). -/

namespace Formula.Number

def digitValue (c : Char) : Nat := c.toNat - '0'.toNat

/-- The natural number that decimal digits denote. -/
def natOfDigits (cs : List Char) : Nat :=
  cs.foldl (fun n c => 10 * n + digitValue c) 0

/-- The float nearest to `significand · 10 ^ exponent`. Far outside the range of floats no power of
ten is computed. -/
def nearest (significand : Nat) (exponent : Int) : Float :=
  let places := (Nat.toDigits 10 significand).length
  if significand == 0 then 0.0
  else if 400 < exponent + places then 1.0 / 0.0
  else if exponent + places < -400 then 0.0
  else Float.ofScientific significand (exponent < 0) exponent.natAbs

/-- A sign before something else. -/
def splitSign : List Char → Bool × List Char
  | '-' :: cs => (true, cs)
  | '+' :: cs => (false, cs)
  | cs => (false, cs)

/-- The power of ten after a mantissa: nothing, or a mark, an optional sign and digits. -/
def readExponent? : List Char → Option Int
  | [] => some 0
  | c :: cs =>
    let (negative, digits) := splitSign cs
    if (c == 'e' || c == 'E') && digits != [] && digits.all Char.isDigit then
      some (if negative then -natOfDigits digits else natOfDigits digits)
    else none

/-- Digits with an optional point, of which at least one is there, and an optional power of ten. -/
def readUnsigned? (cs : List Char) : Option Float :=
  let whole := cs.takeWhile Char.isDigit
  let rest := cs.dropWhile Char.isDigit
  let (fraction, rest) := match rest with
    | '.' :: rest => (rest.takeWhile Char.isDigit, rest.dropWhile Char.isDigit)
    | rest => ([], rest)
  if whole == [] && fraction == [] then none
  else (readExponent? rest).map fun e =>
    nearest (natOfDigits (whole ++ fraction)) (e - fraction.length)

def readDecimal? (cs : List Char) : Option Float :=
  let (negative, cs) := splitSign cs
  (readUnsigned? cs).map fun x => if negative then -x else x

/-- The value of a digit below `radix`, in either case of letters. -/
def radixDigit? (radix : Nat) (c : Char) : Option Nat :=
  let value :=
    if c.isDigit then some (digitValue c)
    else if 'a' ≤ c && c ≤ 'z' then some (c.toNat - 'a'.toNat + 10)
    else if 'A' ≤ c && c ≤ 'Z' then some (c.toNat - 'A'.toNat + 10)
    else none
  value.filter (· < radix)

/-- Digits in another radix, rounded after each digit. -/
def readRadix? (radix : Nat) (cs : List Char) : Option Float :=
  if cs == [] then none
  else (cs.mapM (radixDigit? radix)).map fun ds =>
    ds.foldl (fun x d => x * Float.ofNat radix + Float.ofNat d) 0.0

def nan : Float := 0.0 / 0.0

def infinity : Float := 1.0 / 0.0

/-- The number that a string converts to: zero for a blank one, a NaN for one that is no number. -/
def ofText (s : String) : Float :=
  match Text.trim s.toList with
  | [] => 0.0
  | ['I', 'n', 'f', 'i', 'n', 'i', 't', 'y'] => infinity
  | ['+', 'I', 'n', 'f', 'i', 'n', 'i', 't', 'y'] => infinity
  | ['-', 'I', 'n', 'f', 'i', 'n', 'i', 't', 'y'] => -infinity
  | '0' :: 'x' :: cs => (readRadix? 16 cs).getD nan
  | '0' :: 'X' :: cs => (readRadix? 16 cs).getD nan
  | '0' :: 'o' :: cs => (readRadix? 8 cs).getD nan
  | '0' :: 'O' :: cs => (readRadix? 8 cs).getD nan
  | '0' :: 'b' :: cs => (readRadix? 2 cs).getD nan
  | '0' :: 'B' :: cs => (readRadix? 2 cs).getD nan
  | cs => (readDecimal? cs).getD nan

end Formula.Number
