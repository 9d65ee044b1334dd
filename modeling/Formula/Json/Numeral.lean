import Formula.Json
import Formula.Number.Reading

/-! Numbers of JSON documents. A float is made of the leading digits that 64 bits hold, multiplied
or divided by a power of ten: fast, and in rare cases not the nearest float. -/

namespace Formula.Json

/-- Takes digits as long as 64 bits hold the number: the number, how many were taken, and the
rest. -/
def takeDigits (n taken : Nat) : List Char → Nat × Nat × List Char
  | [] => (n, taken, [])
  | c :: cs =>
    let next := 10 * n + Number.digitValue c
    if c.isDigit && next < 0x10000000000000000 then takeDigits next (taken + 1) cs else (n, taken, c :: cs)

def skipDigits (cs : List Char) : Nat × List Char :=
  ((cs.takeWhile Char.isDigit).length, cs.dropWhile Char.isDigit)

def startsWithDigit : List Char → Bool
  | c :: _ => c.isDigit
  | [] => false

/-- Powers of ten beyond those of floats are taken in two steps or more; a number that is too
large is refused, one that is too small becomes zero. -/
def scaled? (x : Float) (exponent : Int) : Nat → Option Float
  | 0 => some 0.0
  | fuel + 1 =>
    if exponent.natAbs ≤ 308 then
      let power := Float.ofScientific 1 false exponent.natAbs
      if exponent < 0 then some (x / power)
      else
        let y := x * power
        if y.isInf then none else some y
    else if x == 0.0 then some x
    else if 0 ≤ exponent then none
    else scaled? (x / 1e308) (exponent + 308) fuel

def float (negative : Bool) (x : Float) : JsonNumber := .float (if negative then -x else x)

/-- A float from its significand and power of ten; three divisions leave nothing of any
significand. -/
def floatOf (negative : Bool) (significand : Nat) (exponent : Int) : Option JsonNumber :=
  (scaled? (Float.ofNat significand) exponent 4).map (float negative)

/-- A power of ten behind its mark. One that 32 bits do not hold makes a number too
large or zero. -/
def readPower (negative : Bool) (significand : Nat) (exponent : Int) (cs : List Char) :
    Option (JsonNumber × List Char) :=
  let (down, cs) := Number.splitSign cs
  let digits := cs.takeWhile Char.isDigit
  let rest := cs.dropWhile Char.isDigit
  if digits.isEmpty then none
  else
    let n := Number.natOfDigits digits
    if n < 0x80000000 then
      (floatOf negative significand (if down then exponent - n else exponent + n)).map (·, rest)
    else if significand != 0 && !down then none
    else some (float negative 0.0, rest)

def readScale (negative : Bool) (significand : Nat) (exponent : Int) :
    List Char → Option (JsonNumber × List Char)
  | [] => (floatOf negative significand exponent).map (·, [])
  | c :: cs =>
    if c == 'e' || c == 'E' then readPower negative significand exponent cs
    else (floatOf negative significand exponent).map (·, c :: cs)

/-- A fraction behind its point. Digits that do not fit are left out. -/
def readFraction (negative : Bool) (significand : Nat) (exponent : Int) (cs : List Char) :
    Option (JsonNumber × List Char) :=
  let (n, taken, rest) := takeDigits significand 0 cs
  if taken == 0 && !startsWithDigit rest then none
  else readScale negative n (exponent - taken) (skipDigits rest).2

/-- What may follow the digits of a whole number. -/
def readTail (negative : Bool) (significand : Nat) (cs : List Char) :
    Option (JsonNumber × List Char) :=
  let (skipped, rest) := skipDigits cs
  match rest with
  | '.' :: rest => readFraction negative significand skipped rest
  | rest =>
    if skipped == 0 && rest.head? != some 'e' && rest.head? != some 'E' then
      if !negative then some (.whole significand, rest)
      else if 0 < significand && significand ≤ 0x8000000000000000 then some (.whole (-significand), rest)
      else some (float true (Float.ofNat significand), rest)
    else readScale negative significand skipped rest

def readUnsigned (negative : Bool) : List Char → Option (JsonNumber × List Char)
  | '0' :: cs => if startsWithDigit cs then none else readTail negative 0 cs
  | cs =>
    if startsWithDigit cs then
      let (n, _, rest) := takeDigits 0 0 cs
      readTail negative n rest
    else none

def readNumber : List Char → Option (JsonNumber × List Char)
  | '-' :: cs => readUnsigned true cs
  | cs => readUnsigned false cs

end Formula.Json
