import Formula.Evaluation.Operation
import Formula.Expr.Source
import Formula.Function.Registry

/-! The value of a tree in a context. -/

namespace Formula
namespace Evaluation

structure Env where
  host : Host
  functions : Registry
  context : Context

/-- What a step of an access chain comes to. When a null-safe step meets null, the rest of the
chain is given up. -/
inductive Access
  | value (v : Value)
  | shortCircuited

def Access.toValue : Access → Value
  | value v => v
  | shortCircuited => .null

/-- The name of the member that a step asks for. -/
def memberName : Expr → String
  | .const value _ => value.text
  | key => key.source

/-- The place in an array that a number or the text of a whole number names. -/
def arrayIndex? (key : Value) : Option Nat := do
  let n ← match key with
    | .string s => readInt? s.toList
    | v => v.asInt?.map Int64.toInt
  if 0 ≤ n then some n.toNat else none
where
  /-- A whole number of 64 bits in decimal digits, with an optional sign. -/
  readInt? (cs : List Char) : Option Int :=
    let (negative, digits) := Number.splitSign cs
    if digits != [] && digits.all Char.isDigit then
      let n : Int := Number.natOfDigits digits
      (Number.int64? (if negative then -n else n)).map Int64.toInt
    else none

/-- A property of a value; in a soft chain a value without properties has null for each. -/
def property (soft : Bool) (object : Value) (name : String) : Except EvalError Value :=
  match object with
  | .object fields => .ok ((Dict.get? fields name).getD .null)
  | .array items => .ok (if name == "length" then .int (Int64.ofNat items.length) else .null)
  | v => if soft then .ok .null else .error (.propertyOnNonObject name v.kind)

def item (soft : Bool) (object key : Value) : Except EvalError Value :=
  match object with
  | .array items => .ok (((arrayIndex? key).bind (items[·]?)).getD .null)
  | .object fields => .ok ((Dict.get? fields key.text).getD .null)
  | v => if soft then .ok .null else .error (.itemOnNonArray v.kind)

/-- The host function that a method call means; none in a soft chain of a value without methods. -/
def methodOf (soft : Bool) (object : Value) (name : String) : Except EvalError (Option String) :=
  match object with
  | .object fields => match Dict.get? fields name with
    | some (.function f) => .ok (some f)
    | some _ => .error (.notCallable name)
    | none => .error (.undefinedMethod name)
  | v => if soft then .ok none else .error (.methodOnNonObject name v.kind)

def settle (x : Outcome Access) : Outcome Value := do return (← x).toValue

/-- Whether the left operand decides the result of `and` or `or`. -/
def decides (op : BinaryOp) (left : Value) : Bool :=
  op.shortCircuits && if op == .and then !left.isTruthy else left.isTruthy

mutual

/-- Evaluates a tree as a step of an access chain. A chain to the left of `??` is soft. -/
def walk (env : Env) (soft : Bool) : Expr → Outcome Access
  | .const value _ => return .value value
  | .name n => return .value ((env.context.get? n).getD .null)
  | .coalescedName _ => return .value .null
  | .unary op e => do
    let v ← settle (walk env false e)
    return .value (← .ofExcept (Operation.unary op v))
  | .binary op left right => do
    let l ← settle (walk env false left)
    if decides op l then return .value l
    let r ← settle (walk env false right)
    if op.shortCircuits then return .value r
    return .value (← .ofExcept (Operation.binary op l r))
  | .conditional condition yes no => do
    let c ← settle (walk env false condition)
    if c.isTruthy then return .value (← settle (walk env false yes))
    else return .value (← settle (walk env false no))
  | .coalesce left fallback => do
    let l ← settle (walk env true left)
    if l.isNull then return .value (← settle (walk env false fallback)) else return .value l
  | .access kind nullSafe object key arguments => do
    match ← walk env soft object with
    | .shortCircuited => return .shortCircuited
    | .value o =>
      if nullSafe && o.isNull then return .shortCircuited
      match kind with
      | .property => return .value (← .ofExcept (property soft o (memberName key)))
      | .method =>
        match ← .ofExcept (methodOf soft o (memberName key)) with
        | some f =>
          let vs ← walkAll env arguments
          return .value (← .call env.host f vs)
        | none => return .value .null
      | .index =>
        let k ← settle (walk env false key)
        return .value (← .ofExcept (item soft o k))
  | .list es => return .value (.array (← walkAll env es))
  | .hash entries => return .value (.object (← walkEntries env [] entries))
  | .call name arguments =>
    match env.functions.get? name with
    | none => .error (.undefinedFunction name)
    | some f => do
      let vs ← walkAll env arguments
      return .value (← f.apply env.host env.context vs)

def walkAll (env : Env) : List Expr → Outcome (List Value)
  | [] => return []
  | e :: es => do
    let v ← settle (walk env false e)
    let vs ← walkAll env es
    return v :: vs

/-- Puts entry after entry into a map; of equal keys the last value counts. -/
def walkEntries (env : Env) (fields : Dict Value) : List (Expr × Expr) → Outcome (Dict Value)
  | [] => return fields
  | (key, value) :: entries => do
    let k ← settle (walk env false key)
    let v ← settle (walk env false value)
    walkEntries env (fields.put k.text v) entries

end

/-- The value of a tree; `soft` tells whether a missing object in its access chain gives null. -/
def evalIn (env : Env) (soft : Bool) (e : Expr) : Outcome Value := settle (walk env soft e)

end Evaluation

/-- The value of a tree in a context. -/
def Expr.eval (host : Host) (functions : Registry) (context : Context) (e : Expr) : Outcome Value :=
  Evaluation.evalIn ⟨host, functions, context⟩ false e

end Formula
