import Formula.Expr.Literal
import Formula.Value.Conversion

/-! An indented outline of a tree, one node a line, for looking at it. -/

namespace Formula

def AccessKind.label : AccessKind → String
  | property => "Property"
  | method => "Method"
  | index => "Array"

namespace Expr

def variant : Expr → String
  | const _ _ => "ConstantNode"
  | name _ => "NameNode"
  | coalescedName _ => "NullCoalescedNameNode"
  | unary _ _ => "UnaryNode"
  | binary _ _ _ => "BinaryNode"
  | conditional _ _ _ => "ConditionalNode"
  | coalesce _ _ => "NullCoalesceNode"
  | access _ _ _ _ _ => "GetAttrNode"
  | list _ | hash _ => "ArrayNode"
  | call _ _ => "FunctionNode"

def shown (name value : String) : String := name ++ ": '" ++ value ++ "'"

def details : Expr → String
  | const value isIdentifier =>
    shown "value" value.text ++
      if isIdentifier then ", " ++ shown "is_identifier" "true" else ""
  | name n | coalescedName n => shown "name" n
  | unary op _ => shown "operator" op.symbol
  | binary op _ _ => shown "operator" op.symbol
  | conditional _ _ _ | coalesce _ _ => ""
  | access kind nullSafe _ _ _ =>
    shown "type" kind.label ++ ", " ++ shown "null_safe" (if nullSafe then "true" else "false")
  | list _ => shown "type" "Array"
  | hash _ => shown "type" "Object"
  | call function _ => shown "name" function

def indent (depth : Nat) : String := String.ofList (List.replicate (4 * depth) ' ')

def lines : List String → String
  | [] => ""
  | s :: ss => "\n" ++ s ++ lines ss

/-- A node with the outlines of its children. -/
def outlined (depth : Nat) (e : Expr) (children : List String) : String :=
  indent depth ++ e.variant ++ "(" ++ e.details ++
    (if children.isEmpty then ")" else lines children ++ "\n" ++ indent depth ++ ")")

mutual

def outlineAt (depth : Nat) : Expr → String
  | e@(const _ _) | e@(name _) | e@(coalescedName _) => outlined depth e []
  | e@(unary _ operand) => outlined depth e [outlineAt (depth + 1) operand]
  | e@(binary _ left right) =>
    outlined depth e [outlineAt (depth + 1) left, outlineAt (depth + 1) right]
  | e@(conditional condition yes no) =>
    outlined depth e
      [outlineAt (depth + 1) condition, outlineAt (depth + 1) yes, outlineAt (depth + 1) no]
  | e@(coalesce left fallback) =>
    outlined depth e [outlineAt (depth + 1) left, outlineAt (depth + 1) fallback]
  | e@(access _ _ object key arguments) =>
    outlined depth e
      (outlineAt (depth + 1) object :: outlineAt (depth + 1) key ::
        outlinesAt (depth + 1) arguments)
  | e@(list items) => outlined depth e (itemOutlinesAt (depth + 1) 0 items)
  | e@(hash entries) => outlined depth e (entryOutlinesAt (depth + 1) entries)
  | e@(call _ arguments) => outlined depth e (outlinesAt (depth + 1) arguments)

def outlinesAt (depth : Nat) : List Expr → List String
  | [] => []
  | e :: es => outlineAt depth e :: outlinesAt depth es

/-- The items of a list stand under their indices. -/
def itemOutlinesAt (depth index : Nat) : List Expr → List String
  | [] => []
  | e :: es =>
    let key := literal (.int (Int64.ofNat index))
    outlined depth key [] :: outlineAt depth e :: itemOutlinesAt depth (index + 1) es

def entryOutlinesAt (depth : Nat) : List (Expr × Expr) → List String
  | [] => []
  | (key, value) :: entries =>
    outlineAt depth key :: outlineAt depth value :: entryOutlinesAt depth entries

end

def outline (e : Expr) : String := outlineAt 0 e

end Expr
end Formula
