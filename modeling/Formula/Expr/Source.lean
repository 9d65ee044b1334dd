import Formula.Expr
import Formula.Value.Conversion

/-! The source text of a tree. Operators and conditions are put in parentheses. -/

namespace Formula

/-- A string in double quotes, with a backslash before each quote and backslash. -/
def quotedChars : List Char → List Char
  | [] => ['"']
  | c :: cs =>
    if c == '"' || c == '\\' then '\\' :: c :: quotedChars cs else c :: quotedChars cs

def quoted (s : String) : String := String.ofList ('"' :: quotedChars s.toList)

namespace Value

mutual

/-- A function has no source and is written as null. -/
def source : Value → String
  | null | function _ => "null"
  | bool b => if b then "true" else "false"
  | int n => toString n.toInt
  | float x => Number.text x
  | string s => quoted s
  | array items => "[" ++ String.intercalate ", " (itemSources items) ++ "]"
  | object fields => "\x7b" ++ String.intercalate ", " (fieldSources fields) ++ "\x7d"

def itemSources : List Value → List String
  | [] => []
  | item :: items => item.source :: itemSources items

def fieldSources : List (String × Value) → List String
  | [] => []
  | (key, value) :: fields => (quoted key ++ ": " ++ value.source) :: fieldSources fields

end

end Value

namespace Expr

mutual

def source : Expr → String
  | const value isIdentifier => if isIdentifier then value.text else value.source
  | name n => n
  | coalescedName n => n ++ " ?? null"
  | unary op operand => "(" ++ op.symbol ++ " " ++ operand.source ++ ")"
  | binary op left right => "(" ++ left.source ++ " " ++ op.symbol ++ " " ++ right.source ++ ")"
  | conditional condition yes no =>
    "(" ++ condition.source ++ " ? " ++ yes.source ++ " : " ++ no.source ++ ")"
  | coalesce left fallback => "(" ++ left.source ++ ") ?? (" ++ fallback.source ++ ")"
  | access .property nullSafe object key _ =>
    object.source ++ (if nullSafe then "?." else ".") ++ key.source
  | access .method nullSafe object key arguments =>
    object.source ++ (if nullSafe then "?." else ".") ++ key.source ++
      "(" ++ String.intercalate ", " (sources arguments) ++ ")"
  | access .index nullSafe object key _ =>
    object.source ++ (if nullSafe then "?.[" else "[") ++ key.source ++ "]"
  | list items => "[" ++ String.intercalate ", " (sources items) ++ "]"
  | hash entries => "\x7b" ++ String.intercalate ", " (entrySources entries) ++ "\x7d"
  | call function arguments => function ++ "(" ++ String.intercalate ", " (sources arguments) ++ ")"

def sources : List Expr → List String
  | [] => []
  | e :: es => e.source :: sources es

/-- A key that is computed stands in parentheses. -/
def entrySources : List (Expr × Expr) → List String
  | [] => []
  | (key, value) :: entries =>
    ((if key.isConst then key.source else "(" ++ key.source ++ ")") ++ ": " ++ value.source) ::
      entrySources entries

end

end Expr
end Formula
