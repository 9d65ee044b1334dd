import Formula.EvalError
import Formula.Pattern.Automaton
import Formula.Pattern.Body
import Formula.Text.Infix
import Formula.Unicode.Case
import Formula.Value.Equality

/-! What operators make of the values of their operands. -/

namespace Formula

/-- The exact result of an operator on whole numbers, if there is one that is whole. Powers have an
exponent of 32 bits, and the least number has no remainder by minus one. -/
def BinaryOp.onInts? (op : BinaryOp) (a b : Int) : Option Int :=
  match op with
  | .add => some (a + b)
  | .subtract => some (a - b)
  | .multiply => some (a * b)
  | .divide => if b != 0 && a.tmod b == 0 then some (a.tdiv b) else none
  | .modulo => if b == 0 || (a == -0x8000000000000000 && b == -1) then none else some (a.tmod b)
  | .power =>
    if b < 0 || 0x100000000 ≤ b then none
    else if a.natAbs ≤ 1 then some (if b == 0 then 1 else if b % 2 == 0 then a * a else a)
    else if b ≤ 64 then some (Int.pow a b.toNat)
    else none
  | _ => none

/-- The result of an arithmetic operator on floats. -/
def BinaryOp.onFloats (op : BinaryOp) (x y : Float) : Float :=
  match op with
  | .add => x + y
  | .subtract => x - y
  | .multiply => x * y
  | .divide => x / y
  | .modulo => Number.remainder x y
  | .power => Float.pow x y
  | _ => Number.nan

namespace Operation

/-- On whole numbers the exact result if 64 bits hold it; in all other cases floats. -/
def arithmetic (op : BinaryOp) (left right : Value) : Except EvalError Value :=
  match left, right with
  | .int a, .int b =>
    match (op.onInts? a.toInt b.toInt).bind Number.int64? with
    | some n => .ok (.int n)
    | none => .ok (.float (op.onFloats (Number.ofInt64 a) (Number.ofInt64 b)))
  | _, _ =>
    if left.isNumber && right.isNumber then
      .ok (.float (op.onFloats left.toNumber right.toNumber))
    else .error (.type (.operands op left.kind right.kind))

/-- Two strings are ordered by their characters, other values as numbers; a NaN is not ordered. -/
def order? (left right : Value) : Option Ordering :=
  match left, right with
  | .string s, .string t => some (compareOfLessAndEq s t)
  | _, _ =>
    let x := left.toNumber
    let y := right.toNumber
    if x < y then some .lt else if x == y then some .eq else if y < x then some .gt else none

def contains (op : BinaryOp) (needle haystack : Value) : Except EvalError Bool :=
  match haystack with
  | .array items => .ok (items.any (·.strictEq needle))
  | v => .error (.type (.rightOperand op v.kind))

/-- A null subject matches nothing, whatever the pattern. -/
def matching (subject literal : Value) : Except EvalError Bool :=
  if subject.isNull then .ok false
  else match literal with
    | .string s => match Pattern.ofLiteral s with
      | .ok pattern => .ok (pattern.isMatch subject.text)
      | .error fault => .error (.invalidPattern s fault)
    | v => .error (.type (.rightOperand .matching v.kind))

/-- Whole numbers from one to another upwards, both included. -/
def ascending (low high : Int64) : List Int64 :=
  (List.range ((high.toInt - low.toInt).toNat + 1)).map fun i => low + Int64.ofNat i

/-- Whole numbers from one bound to the other, both included, upwards or downwards. -/
def rangeItems (first last : Int64) : List Int64 :=
  if first ≤ last then ascending first last else (ascending last first).reverse

def range (left right : Value) : Except EvalError Value :=
  match left.asInt?, right.asInt? with
  | some first, some last =>
    let length := (last.toInt - first.toInt).natAbs + 1
    if maxRangeLength < length then .error (.rangeTooLarge length)
    else .ok (.array ((rangeItems first last).map .int))
  | _, _ => .error (.type (.rangeBounds left.kind right.kind))

def lowered (v : Value) : List Char := (Unicode.Case.toLower v.text).toList

def unary (op : UnaryOp) (v : Value) : Except EvalError Value :=
  match op with
  | .not | .bang => .ok (.bool !v.isTruthy)
  | .negate => match v with
    | .int n => match Number.int64? (-n.toInt) with
      | some m => .ok (.int m)
      | none => .ok (.float (-Number.ofInt64 n))
    | .float x => .ok (.float (-x))
    | v => .error (.type (.unaryOperand op v.kind))
  | .plus => if v.isNumber then .ok v else .error (.type (.unaryOperand op v.kind))

def isString : Value → Bool
  | .string _ => true
  | _ => false

def joined (left right : Value) : Value := .string (left.text ++ right.text)

def bitwise (f : Int32 → Int32 → Int32) (left right : Value) : Value :=
  .int (f left.toInt32 right.toInt32).toInt64

/-- A binary operator on two values. -/
def binary (op : BinaryOp) (left right : Value) : Except EvalError Value :=
  match op with
  | .or => .ok (if left.isTruthy then left else right)
  | .and => .ok (if left.isTruthy then right else left)
  | .xor => .ok (.bool (left.isTruthy != right.isTruthy))
  | .bitOr => .ok (bitwise (· ||| ·) left right)
  | .bitXor => .ok (bitwise (· ^^^ ·) left right)
  | .bitAnd => .ok (bitwise (· &&& ·) left right)
  | .equal => .ok (.bool (left.looseEq right))
  | .notEqual => .ok (.bool !(left.looseEq right))
  | .identical => .ok (.bool (left.strictEq right))
  | .notIdentical => .ok (.bool !(left.strictEq right))
  | .less => .ok (.bool (order? left right == some .lt))
  | .greater => .ok (.bool (order? left right == some .gt))
  | .lessEqual => .ok (.bool (order? left right == some .lt || order? left right == some .eq))
  | .greaterEqual => .ok (.bool (order? left right == some .gt || order? left right == some .eq))
  | .isIn => (contains op left right).map .bool
  | .notIn => (contains op left right).map fun found => .bool !found
  | .matching => (matching left right).map .bool
  | .contains => .ok (.bool (Text.isInfix (lowered right) (lowered left)))
  | .startsWith => .ok (.bool ((lowered right).isPrefixOf (lowered left)))
  | .endsWith => .ok (.bool ((lowered right).isSuffixOf (lowered left)))
  | .range => range left right
  | .add =>
    if isString left || isString right then .ok (joined left right) else arithmetic op left right
  | .concat => .ok (joined left right)
  | .subtract | .multiply | .divide | .modulo | .power => arithmetic op left right

end Operation
end Formula
