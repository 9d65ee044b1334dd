import Formula.Operator
import Formula.Pattern.Literal
import Formula.Value

/-! What can go wrong while an expression is evaluated. -/

namespace Formula

/-- An operand of a kind that an operator does not take. -/
inductive TypeFault
  | unaryOperand (op : UnaryOp) (kind : Kind)
  | operands (op : BinaryOp) (left right : Kind)
  | rightOperand (op : BinaryOp) (kind : Kind)
  | rangeBounds (left right : Kind)
  | other (message : String)

def TypeFault.message : TypeFault → String
  | unaryOperand op kind => "Unsupported operand type for unary " ++ op.symbol ++ ": " ++ kind.name
  | operands op left right =>
    "Unsupported operand types for " ++ op.symbol ++ ": " ++ left.name ++ " and " ++ right.name
  | rightOperand op kind => "Unsupported right operand for " ++ op.symbol ++ ": " ++ kind.name
  | rangeBounds left right =>
    "Range bounds must be integers, got " ++ left.name ++ " and " ++ right.name
  | other message => message

/-- The most elements that a range may have. -/
def maxRangeLength : Nat := 1000000

inductive EvalError
  | type (fault : TypeFault)
  | propertyOnNonObject (property : String) (kind : Kind)
  | methodOnNonObject (method : String) (kind : Kind)
  | undefinedMethod (method : String)
  | notCallable (method : String)
  | itemOnNonArray (kind : Kind)
  | undefinedFunction (name : String)
  | rangeTooLarge (length : Nat)
  | invalidPattern (literal : String) (fault : Pattern.Fault)
  | host (message : String)

def Pattern.Fault.reason : Pattern.Fault → String
  | noOpeningSlash => ": expected a /pattern/flags literal"
  | noClosingSlash => ": missing closing delimiter"
  | unknownFlag flag => ": unknown flag '" ++ flag.toString ++ "'"
  | malformed => ""

def EvalError.message : EvalError → String
  | type fault => fault.message
  | propertyOnNonObject property kind =>
    "Unable to get property \"" ++ property ++ "\" on a non-object: " ++ kind.name
  | methodOnNonObject method kind =>
    "Unable to call method \"" ++ method ++ "\" on a non-object: " ++ kind.name
  | undefinedMethod method => "Method \"" ++ method ++ "\" is undefined on object."
  | notCallable method => "Method \"" ++ method ++ "\" is not a function on object."
  | itemOnNonArray kind => "Unable to get an item on a non-array: " ++ kind.name
  | undefinedFunction name => "The function \"" ++ name ++ "\" does not exist"
  | rangeTooLarge length =>
    "Range of " ++ toString length ++ " elements exceeds the limit of " ++ toString maxRangeLength
  | invalidPattern literal fault =>
    "Invalid regular expression \"" ++ literal ++ "\"" ++ fault.reason
  | host message => message

end Formula
