import Formula.Value.Conversion

/-! JSON documents, and their exchange with values. -/

namespace Formula

/-- Whole numbers are those that were written without a fraction or a power of ten and that 64 bits,
signed or unsigned, hold. -/
inductive JsonNumber
  | whole (n : Int)
  | float (x : Float)

inductive Json
  | null
  | bool (b : Bool)
  | number (n : JsonNumber)
  | string (s : String)
  | array (items : List Json)
  | object (members : List (String × Json))
deriving Inhabited

namespace Json

def numberValue : JsonNumber → Value
  | .whole n => (Number.int64? n).elim (.float (Float.ofInt n)) .int
  | .float x => .float x

mutual

def toValue : Json → Value
  | null => .null
  | bool b => .bool b
  | number n => numberValue n
  | string s => .string s
  | array items => .array (toValues items)
  | object members => .object (toFields members)

def toValues : List Json → List Value
  | [] => []
  | item :: items => item.toValue :: toValues items

def toFields : List (String × Json) → List (String × Value)
  | [] => []
  | (key, value) :: members => (key, value.toValue) :: toFields members

end

mutual

/-- Functions and numbers that are not finite become null. -/
def ofValue : Value → Json
  | .null | .function _ => null
  | .bool b => bool b
  | .int n => number (.whole n.toInt)
  | .float x => if x.isFinite then number (.float x) else null
  | .string s => string s
  | .array items => array (ofValues items)
  | .object fields => object (ofFields fields)

def ofValues : List Value → List Json
  | [] => []
  | item :: items => ofValue item :: ofValues items

def ofFields : List (String × Value) → List (String × Json)
  | [] => []
  | (key, value) :: fields => (key, ofValue value) :: ofFields fields

end

end Json
end Formula
