import Formula.Expr
import Formula.Parsing.Scope
import Formula.Parsing.State

/-! The productions of the grammar. `sub` reads an expression whose operators bind at least as
tightly as it is told; nothing here calls itself. -/

namespace Formula.Parsing

variable (scope : Scope) (sub : Nat → Parser Expr)

/-- Arguments are separated by commas; none stands behind the last. -/
def argumentStep (done : List Expr) : Parser (Progress (List Expr) (List Expr)) := do
  if ← check ")" then return .done done.reverse
  if !done.isEmpty then expectPunctuation "," "Arguments must be separated by a comma"
  let argument ← sub 0
  return .again (argument :: done)

def arguments : Parser (List Expr) := do
  expectPunctuation "(" "A list of arguments must begin with an opening parenthesis"
  let arguments ← loop (argumentStep sub) []
  expectPunctuation ")" "A list of arguments must be closed by a parenthesis"
  return arguments

/-- A comma may stand behind the last item. -/
def itemStep (done : List Expr) : Parser (Progress (List Expr) (List Expr)) := do
  if ← check "]" then return .done done.reverse
  if !done.isEmpty then expectPunctuation "," "An array element must be followed by a comma"
  if ← check "]" then return .done done.reverse
  let item ← sub 0
  return .again (item :: done)

def listLiteral : Parser Expr := do
  expectPunctuation "[" "An array element was expected"
  let items ← loop (itemStep sub) []
  expectPunctuation "]" "An opened array is not properly closed"
  return .list items

/-- A key is one string, name or number, or an expression that begins with a parenthesis. -/
def hashKey : Parser Expr := do
  let token ← peek
  match token.kind with
  | .string | .name | .number =>
    advance
    return .literal token.value
  | _ =>
    if token.isPunctuation "(" then sub 0
    else fail (.badHashKey token) token.cursor

def entryStep (done : List (Expr × Expr)) :
    Parser (Progress (List (Expr × Expr)) (List (Expr × Expr))) := do
  if ← check "\x7d" then return .done done.reverse
  if !done.isEmpty then expectPunctuation "," "A hash value must be followed by a comma"
  if ← check "\x7d" then return .done done.reverse
  let key ← hashKey sub
  expectPunctuation ":" "A hash key must be followed by a colon (:)"
  let value ← sub 0
  return .again ((key, value) :: done)

def hashLiteral : Parser Expr := do
  expectPunctuation "\x7b" "A hash element was expected"
  let entries ← loop (entryStep sub) []
  expectPunctuation "\x7d" "An opened hash is not properly closed"
  return .hash entries

def isIdentifierStart (c : Char) : Bool := c.isAlpha || c == '_' || '\x7f' ≤ c

def isIdentifier (s : String) : Bool :=
  match s.toList with
  | [] => false
  | c :: cs => isIdentifierStart c && cs.all fun c => isIdentifierStart c || c.isDigit

/-- The member name in a token; operators that are words are names here. -/
def memberName? (token : Token) : Option String :=
  match token.kind with
  | .name => token.text?
  | .operator => token.text?.filter isIdentifier
  | _ => none

def index (object : Expr) (nullSafe : Bool) : Parser Expr := do
  advance
  let key ← sub 0
  expectPunctuation "]" none
  return .access .index nullSafe object key []

def member (object : Expr) (nullSafe : Bool) : Parser Expr := do
  let token ← peek
  advance
  let some name := memberName? token | fail .expectedName token.cursor
  if ← check "(" then
    return .access .method nullSafe object (.identifier name) (← arguments sub)
  else
    return .access .property nullSafe object (.identifier name) []

def postfixStep (object : Expr) : Parser (Progress Expr Expr) := do
  let token ← peek
  if token.isPunctuation "." then
    advance
    return .again (← member sub object false)
  else if token.isPunctuation "?." then
    advance
    if ← check "[" then return .again (← index sub object true)
    else return .again (← member sub object true)
  else if token.isPunctuation "[" then return .again (← index sub object false)
  else return .done object

/-- Any number of access steps behind an object. -/
def postfixed (object : Expr) : Parser Expr := loop (postfixStep sub) object

/-- An undeclared name is let pass before `??`. -/
def variableNamed (name : String) (cursor : Nat) : Parser Expr := do
  if scope.leniency.unknownVariables || scope.spellings.contains name then return .name (scope.key name)
  else if ← check "??" then return .coalescedName name
  else
    let state ← get
    throw ⟨.unknownVariable name, cursor, state.stream.expression, name, scope.spellings⟩

def callOf (name : String) (cursor : Nat) : Parser Expr := do
  if scope.functions.contains name || scope.leniency.unknownFunctions then
    return .call name (← arguments sub)
  else
    let state ← get
    throw ⟨.unknownFunction name, cursor, state.stream.expression, name, scope.functions⟩

/-- Names of constants, in small and in capital letters. -/
def constant? : String → Option Value
  | "true" | "TRUE" => some (.bool true)
  | "false" | "FALSE" => some (.bool false)
  | "null" | "NULL" => some .null
  | _ => none

/-- No access step may follow a constant. -/
def primary : Parser Expr := do
  let token ← peek
  match token.kind with
  | .name =>
    advance
    let name := token.text?.getD ""
    match constant? name with
    | some value => return .literal value
    | none =>
      if ← check "(" then postfixed sub (← callOf scope sub name token.cursor)
      else postfixed sub (← variableNamed scope name token.cursor)
  | .number | .string =>
    advance
    return .literal token.value
  | _ =>
    if token.isPunctuation "[" then postfixed sub (← listLiteral sub)
    else if token.isPunctuation "\x7b" then postfixed sub (← hashLiteral sub)
    else fail (.unexpectedToken token) token.cursor

def unaryOp? (token : Token) : Option UnaryOp :=
  if token.kind == .operator then token.text?.bind UnaryOp.ofSymbol? else none

def binaryOp? (token : Token) : Option BinaryOp :=
  if token.kind == .operator then token.text?.bind BinaryOp.ofSymbol? else none

/-- An expression without binary operators outside parentheses. -/
def operand : Parser Expr := do
  let token ← peek
  match unaryOp? token with
  | some op =>
    advance
    let e ← sub op.precedence
    postfixed sub (.unary op e)
  | none =>
    if token.isPunctuation "(" then
      advance
      let e ← sub 0
      expectPunctuation ")" "An opened parenthesis is not properly closed"
      postfixed sub e
    else primary scope sub

/-- Takes one more operator, with its right operand, if it binds tightly enough. -/
def binaryStep (precedence : Nat) (left : Expr) : Parser (Progress Expr Expr) := do
  match binaryOp? (← peek) with
  | none => return .done left
  | some op =>
    if op.precedence < precedence then return .done left
    advance
    let right ← sub op.rightPrecedence
    return .again (.binary op left right)

def coalesceStep (left : Expr) : Parser (Progress Expr Expr) := do
  if ← check "??" then
    advance
    return .again (.coalesce left (← sub 0))
  else return .done left

/-- `a ? b : c`, `a ?: c` for `a ? a : c`, and `a ? b` for `a ? b : null`. -/
def conditionalStep (condition : Expr) : Parser (Progress Expr Expr) := do
  if !(← check "?") then return .done condition
  advance
  if ← check ":" then
    advance
    return .again (.conditional condition condition (← sub 0))
  let yes ← sub 0
  if ← check ":" then
    advance
    return .again (.conditional condition yes (← sub 0))
  return .again (.conditional condition yes (.literal .null))

end Formula.Parsing
