import Formula.Value
import Formula.Number.Reading
import Formula.Number.Text

/-! Conversions that operators apply to their operands: to a truth value, to a number, to a whole
number, and to text. -/

namespace Formula

namespace Number

/-- The float nearest to a whole number, ties to the even one. -/
def ofInt64 (n : Int64) : Float :=
  let magnitude := n.toInt.natAbs.toUInt64.toFloat
  if n < 0 then -magnitude else magnitude

/-- A whole number cut off at the limits of 64 bits. -/
def clampInt64 (n : Int) : Int64 :=
  Int64.ofInt (max (-0x8000000000000000) (min 0x7FFFFFFFFFFFFFFF n))

/-- The whole number, if 64 bits hold it. -/
def int64? (n : Int) : Option Int64 :=
  if -0x8000000000000000 ≤ n && n < 0x8000000000000000 then some (Int64.ofInt n) else none

end Number

namespace Value

/-- Null, false, zero, NaN and the empty string count as false. -/
def isTruthy : Value → Bool
  | null => false
  | bool b => b
  | int n => n != 0
  | float x => x != 0.0 && !x.isNaN
  | string s => s != ""
  | array _ | object _ | function _ => true

def asFloat? : Value → Option Float
  | int n => some (Number.ofInt64 n)
  | float x => some x
  | _ => none

/-- The whole number that a number is, cut off at the limits of 64 bits. -/
def asInt? : Value → Option Int64
  | int n => some n
  | float x => if Number.isWhole x then some (Number.clampInt64 (Number.truncate x)) else none
  | _ => none

def toNumber : Value → Float
  | null => 0.0
  | bool b => if b then 1.0 else 0.0
  | int n => Number.ofInt64 n
  | float x => x
  | string s => Number.ofText s
  | array _ | object _ | function _ => Number.nan

/-- The number rounded toward zero and taken modulo `2 ^ 32`; zero when there is none. -/
def toInt32 (v : Value) : Int32 :=
  let x := v.toNumber
  if x.isFinite then Int32.ofInt (Number.truncate x) else 0

mutual

/-- The text that concatenation and the text predicates see. -/
def text : Value → String
  | null => "null"
  | bool b => if b then "true" else "false"
  | int n => toString n.toInt
  | float x => Number.text x
  | string s => s
  | array items => String.intercalate "," (itemTexts items)
  | object _ => "[object Object]"
  | function _ => "function"

/-- A null item of an array has no text. -/
def itemTexts : List Value → List String
  | [] => []
  | null :: items => "" :: itemTexts items
  | item :: items => item.text :: itemTexts items

end

end Value
end Formula
