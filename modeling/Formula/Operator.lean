/-! The operators, their spellings and how tightly they bind. -/

namespace Formula

inductive UnaryOp
  | not
  | bang
  | negate
  | plus
deriving DecidableEq, Repr

namespace UnaryOp

def ofSymbol? : String → Option UnaryOp
  | "not" => some not
  | "!" => some bang
  | "-" => some negate
  | "+" => some plus
  | _ => none

def symbol : UnaryOp → String
  | not => "not"
  | bang => "!"
  | negate => "-"
  | plus => "+"

def precedence : UnaryOp → Nat
  | not | bang => 50
  | negate | plus => 500

/-- The spelling in JavaScript. -/
def script : UnaryOp → String
  | not | bang => "!"
  | negate => "-"
  | plus => "+"

theorem ofSymbol?_symbol (op : UnaryOp) : ofSymbol? op.symbol = some op := by
  cases op <;> rfl

end UnaryOp

inductive BinaryOp
  | or
  | xor
  | and
  | bitOr
  | bitXor
  | bitAnd
  | equal
  | identical
  | notEqual
  | notIdentical
  | less
  | greater
  | lessEqual
  | greaterEqual
  | isIn
  | notIn
  | matching
  | contains
  | startsWith
  | endsWith
  | range
  | add
  | subtract
  | concat
  | multiply
  | divide
  | modulo
  | power
deriving DecidableEq, Repr

namespace BinaryOp

def ofSymbol? : String → Option BinaryOp
  | "or" | "||" => some or
  | "xor" => some xor
  | "and" | "&&" => some and
  | "|" => some bitOr
  | "^" => some bitXor
  | "&" => some bitAnd
  | "==" => some equal
  | "===" => some identical
  | "!=" => some notEqual
  | "!==" => some notIdentical
  | "<" => some less
  | ">" => some greater
  | "<=" => some lessEqual
  | ">=" => some greaterEqual
  | "in" => some isIn
  | "not in" => some notIn
  | "matches" => some matching
  | "contains" => some contains
  | "starts with" => some startsWith
  | "ends with" => some endsWith
  | ".." => some range
  | "+" => some add
  | "-" => some subtract
  | "~" => some concat
  | "*" => some multiply
  | "/" => some divide
  | "%" => some modulo
  | "**" => some power
  | _ => none

/-- The spelling that is printed; the logical operators have a second one. -/
def symbol : BinaryOp → String
  | or => "or"
  | xor => "xor"
  | and => "and"
  | bitOr => "|"
  | bitXor => "^"
  | bitAnd => "&"
  | equal => "=="
  | identical => "==="
  | notEqual => "!="
  | notIdentical => "!=="
  | less => "<"
  | greater => ">"
  | lessEqual => "<="
  | greaterEqual => ">="
  | isIn => "in"
  | notIn => "not in"
  | matching => "matches"
  | contains => "contains"
  | startsWith => "starts with"
  | endsWith => "ends with"
  | range => ".."
  | add => "+"
  | subtract => "-"
  | concat => "~"
  | multiply => "*"
  | divide => "/"
  | modulo => "%"
  | power => "**"

def precedence : BinaryOp → Nat
  | or => 10
  | xor => 12
  | and => 15
  | bitOr => 16
  | bitXor => 17
  | bitAnd => 18
  | equal | identical | notEqual | notIdentical | less | greater | lessEqual | greaterEqual
  | isIn | notIn | matching | contains | startsWith | endsWith => 20
  | range => 25
  | add | subtract => 30
  | concat => 40
  | multiply | divide | modulo => 60
  | power => 200

def isRightAssoc : BinaryOp → Bool
  | power => true
  | _ => false

/-- The weakest binding an operator inside the right operand may have. -/
def rightPrecedence (op : BinaryOp) : Nat :=
  if op.isRightAssoc then op.precedence else op.precedence + 1

/-- The spelling between operands in JavaScript, for the operators that have one. -/
def script? : BinaryOp → Option String
  | or => some "||"
  | and => some "&&"
  | bitOr => some "|"
  | bitXor => some "^"
  | bitAnd => some "&"
  | equal => some "=="
  | identical => some "==="
  | notEqual => some "!="
  | notIdentical => some "!=="
  | less => some "<"
  | greater => some ">"
  | lessEqual => some "<="
  | greaterEqual => some ">="
  | add => some "+"
  | subtract => some "-"
  | multiply => some "*"
  | divide => some "/"
  | modulo => some "%"
  | xor | isIn | notIn | matching | contains | startsWith | endsWith | range | concat
  | power => none

/-- Whether the left operand may decide the result alone. -/
def shortCircuits : BinaryOp → Bool
  | or | and => true
  | _ => false

theorem ofSymbol?_symbol (op : BinaryOp) : ofSymbol? op.symbol = some op := by
  cases op <;> rfl

end BinaryOp
end Formula
