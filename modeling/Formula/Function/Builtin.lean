import Formula.Function
import Formula.Function.Resolver
import Formula.Value.Conversion

/-! The functions every language has: `min`, `max`, `constant` and `enum`. -/

namespace Formula
namespace Builtin

def callScript (name : String) (arguments : List String) : String :=
  name ++ "(" ++ String.intercalate ", " arguments ++ ")"

/-- The argument that no later one betters, if no argument is a NaN. -/
def best (better : Float → Float → Bool) (empty : Value) :
    Option (Value × Float) → List Value → Value
  | none, [] => empty
  | some (v, x), [] => if v.isNumber then v else .float x
  | found, v :: vs =>
    let x := v.toNumber
    if x.isNaN then .float Number.nan
    else if found.all fun (_, y) => better x y then best better empty (some (v, x)) vs
    else best better empty found vs

/-- The text of a string literal in double quotes. A backslash only protects what follows it. -/
def unquotedChars? : List Char → Option (List Char)
  | [] => none
  | ['"'] => some []
  | '"' :: _ => none
  | '\\' :: cs => match cs with
    | [] => none
    | c :: cs => (unquotedChars? cs).map (c :: ·)
  | c :: cs => (unquotedChars? cs).map (c :: ·)

def unquoted? (source : String) : Option (List Char) :=
  match source.toList with
  | '"' :: cs => unquotedChars? cs
  | _ => none

/-- Words at which no binding starts in JavaScript. -/
def reservedWords : List String :=
  ["await", "break", "case", "catch", "class", "const", "continue", "debugger", "default",
    "delete", "do", "else", "enum", "export", "extends", "false", "finally", "for", "function",
    "if", "import", "in", "instanceof", "let", "new", "null", "return", "super", "switch",
    "this", "throw", "true", "try", "typeof", "var", "void", "while", "with", "yield"]

def isBindingStart (c : Char) : Bool := c.isAlpha || c == '_' || c == '$'

def isBinding : List Char → Bool
  | [] => false
  | c :: cs => isBindingStart c && cs.all fun c => isBindingStart c || c.isDigit

/-- Identifiers with dots between them, the first of them no reserved word. -/
def isBindingPath (path : List Char) : Bool :=
  match Text.segments '.' path with
  | [] => false
  | first :: rest =>
    isBinding first && !reservedWords.contains (String.ofList first) && rest.all isBinding

/-- Double colons and backslashes in a path of an enumeration stand for dots. -/
def dotted : List Char → List Char
  | [] => []
  | ':' :: ':' :: cs => '.' :: dotted cs
  | '\\' :: cs => '.' :: dotted cs
  | c :: cs => c :: dotted cs

def enumPath (path : List Char) : List Char := (dotted path).dropWhile (· == '.')

/-- A literal path becomes the binding itself; anything else is left to a helper at run time. -/
def pathScript (name : String) (normalize : List Char → List Char) (arguments : List String) :
    String :=
  match (arguments.head?.bind unquoted?).map normalize with
  | some path => if isBindingPath path then String.ofList path else callScript name arguments
  | none => callScript name arguments

/-- The host's value for the path, else the variable of that name, else null. -/
def pathValue (resolver : Option Resolver) (normalize : List Char → List Char) (context : Context)
    (arguments : List Value) : Value :=
  match arguments with
  | .string path :: _ =>
    let found := (resolver.bind (· (String.ofList (normalize path.toList)))) <|> context.get? path
    found.getD .null
  | _ => .null

def min : Function where
  name := "min"
  script := callScript "Math.min"
  body := .computed fun _ vs => .ok (best (· < ·) (.float Number.infinity) none vs)

def max : Function where
  name := "max"
  script := callScript "Math.max"
  body := .computed fun _ vs => .ok (best (· > ·) (.float (-Number.infinity)) none vs)

def constant (resolver : Option Resolver) : Function where
  name := "constant"
  script := pathScript "constant" id
  body := .computed fun context vs => .ok (pathValue resolver id context vs)

def enum (resolver : Option Resolver) : Function where
  name := "enum"
  script := pathScript "enum" enumPath
  body := .computed fun context vs => .ok (pathValue resolver enumPath context vs)

end Builtin

/-- Why a function of the host cannot be adapted. -/
inductive AdaptError
  | noFunction (path : String)
  | noName (path : String)
deriving DecidableEq, Repr

def AdaptError.message : AdaptError → String
  | noFunction path => "LogicException: Host function \"" ++ path ++ "\" does not exist."
  | noName path =>
    "LogicException: An expression function name must be defined when host function \"" ++ path ++
      "\" is namespaced."

/-- A function that calls the host's function at a path. A path with dots needs a name
of its own. -/
def Function.ofHost (resolver : Resolver) (path : String) (name : Option String) :
    Except AdaptError Function :=
  let path := String.ofList (path.toList.dropWhile (· == '/'))
  match resolver path with
  | some (.function target) =>
    if name.isNone && path.toList.contains '.' then .error (.noName path)
    else .ok { name := name.getD path, script := Builtin.callScript path, body := .hosted target }
  | _ => .error (.noFunction path)

end Formula
