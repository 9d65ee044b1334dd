import Formula.Operator
import Formula.Value

/-! The trees that expressions are parsed to. -/

namespace Formula

/-- How an access step reaches into its object: `a.b`, `a.b(…)` or `a[b]`. -/
inductive AccessKind
  | property
  | method
  | index
deriving DecidableEq, Repr

/-- An identifier constant is the name of a member. A coalesced name is an unknown variable that is
tolerated to the left of `??`. -/
inductive Expr
  | const (value : Value) (isIdentifier : Bool)
  | name (name : String)
  | coalescedName (name : String)
  | unary (op : UnaryOp) (operand : Expr)
  | binary (op : BinaryOp) (left right : Expr)
  | conditional (condition yes no : Expr)
  | coalesce (left fallback : Expr)
  | access (kind : AccessKind) (nullSafe : Bool) (object key : Expr) (arguments : List Expr)
  | list (items : List Expr)
  | hash (entries : List (Expr × Expr))
  | call (function : String) (arguments : List Expr)
deriving Inhabited

namespace Expr

def literal (value : Value) : Expr := const value false

def identifier (name : String) : Expr := const (.string name) true

def isConst : Expr → Bool
  | const _ _ => true
  | _ => false

end Expr
end Formula
