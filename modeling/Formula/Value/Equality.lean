import Formula.Value.Conversion

/-! Two equalities of values. The strict one asks for the same kind and the same value; the loose
one compares numbers, numeric strings and truth values as numbers. -/

namespace Formula.Value

mutual

def strictEq : Value → Value → Bool
  | null, null => true
  | bool a, bool b => a == b
  | int a, int b => a == b
  | int a, float b => Number.ofInt64 a == b
  | float a, int b => a == Number.ofInt64 b
  | float a, float b => a == b
  | string a, string b => a == b
  | array as, array bs => strictEqItems as bs
  | object as, object bs => as.length == bs.length && strictEqFields as bs
  | function a, function b => a == b
  | _, _ => false

def strictEqItems : List Value → List Value → Bool
  | [], [] => true
  | a :: as, b :: bs => strictEq a b && strictEqItems as bs
  | _, _ => false

/-- Every field has an equal field of the same key on the other side. -/
def strictEqFields : List (String × Value) → List (String × Value) → Bool
  | [], _ => true
  | (key, a) :: as, bs =>
    (match Dict.get? bs key with
      | some b => strictEq a b
      | none => false) && strictEqFields as bs

end

/-- Values that the loose equality compares as numbers. -/
def isScalar : Value → Bool
  | bool _ | int _ | float _ | string _ => true
  | _ => false

mutual

def looseEq : Value → Value → Bool
  | null, b => b.isNull
  | string a, string b => a == b
  | array as, array bs => looseEqItems as bs
  | object as, object bs => as.length == bs.length && looseEqFields as bs
  | function a, function b => a == b
  | a, b => a.isScalar && b.isScalar && a.toNumber == b.toNumber

def looseEqItems : List Value → List Value → Bool
  | [], [] => true
  | a :: as, b :: bs => looseEq a b && looseEqItems as bs
  | _, _ => false

def looseEqFields : List (String × Value) → List (String × Value) → Bool
  | [], _ => true
  | (key, a) :: as, bs =>
    (match Dict.get? bs key with
      | some b => looseEq a b
      | none => false) && looseEqFields as bs

end

end Formula.Value
