import Formula.Dict

/-! The values that expressions compute with, and the kinds that error messages name. -/

namespace Formula

/-- Whole numbers of 64 bits are kept apart from floats until an operation needs one. A function is
a name that the host knows; two functions are the same exactly when their names are. -/
inductive Value
  | null
  | bool (b : Bool)
  | int (n : Int64)
  | float (x : Float)
  | string (s : String)
  | array (items : List Value)
  | object (fields : List (String × Value))
  | function (name : String)
deriving Inhabited

/-- What a type error calls a value. Both sorts of numbers are of one kind. -/
inductive Kind
  | null
  | boolean
  | number
  | string
  | array
  | object
  | function
deriving DecidableEq, Repr

def Kind.name : Kind → String
  | null => "null"
  | boolean => "boolean"
  | number => "number"
  | string => "string"
  | array => "array"
  | object => "object"
  | function => "function"

namespace Value

def kind : Value → Kind
  | null => .null
  | bool _ => .boolean
  | int _ | float _ => .number
  | string _ => .string
  | array _ => .array
  | object _ => .object
  | function _ => .function

def isNull : Value → Bool
  | null => true
  | _ => false

def isNumber (v : Value) : Bool := v.kind == .number

end Value

/-- The variables that an expression is evaluated against. -/
abbrev Context := Dict Value

end Formula
