import Formula.Parsing.Production
import Formula.Token.Lexer

/-! From tokens to trees, by precedence climbing. -/

namespace Formula
namespace Parsing

/-- How many expressions may be open inside one another. -/
def maxNesting : Nat := 128

/-- Notes that an expression begins, and how deep it lies if it may be read. -/
def opening (mayRead : Bool) : Parser Unit := modify fun s =>
  let depth := s.depth + 1
  let deepest := if mayRead then max s.deepest depth else s.deepest
  { s with begun := s.begun + 1, depth, deepest }

def closing : Parser Unit := modify fun s => { s with depth := s.depth - 1 }

/-- Reads an expression whose operators bind at least as tightly as `precedence`; at precedence zero
it may go on with `??` and `?`. The first argument is how many levels of nesting are left. -/
def expression (scope : Scope) : Nat → Nat → Parser Expr
  | 0, _ => do
    opening false
    fail .nestedTooDeeply (← peek).cursor
  | levels + 1, precedence => do
    opening true
    let sub := expression scope levels
    let left ← operand scope sub
    let e ← loop (binaryStep sub precedence) left
    let e ← if precedence == 0 then loop (coalesceStep sub) e else pure e
    let e ← if precedence == 0 then loop (conditionalStep sub) e else pure e
    closing
    return e

/-- An expression up to the end. -/
def whole (scope : Scope) : Parser Expr := do
  let e ← expression scope maxNesting 0
  let token ← peek
  if token.kind == .ending then return e
  else fail (.unexpectedToken token) token.cursor

end Parsing

/-- The tree of a token stream that stands at its beginning. -/
def parseTokens (scope : Scope) (stream : TokenStream) : Except SyntaxError Expr :=
  match (Parsing.whole scope).run { stream } with
  | .ok e _ => .ok e
  | .error e _ => .error e

/-- The tree of a text. -/
def parseText (scope : Scope) (text : String) : Except SyntaxError Expr :=
  tokenize text >>= parseTokens scope

end Formula
