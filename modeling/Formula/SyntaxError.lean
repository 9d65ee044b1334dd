import Formula.Text.Distance
import Formula.Token

/-! What can be wrong with the text of an expression, and how it is told. -/

namespace Formula

inductive Fault
  | unexpectedCharacter (c : Char)
  | unexpectedClosing (c : Char)
  | unclosed (c : Char)
  | unexpectedEnd
  | unexpectedToken (found : Token)
  | expectedToken (context : Option String) (found : Token) (kind : TokenKind)
    (text : Option String)
  | expectedName
  | badHashKey (found : Token)
  | nestedTooDeeply
  | unknownFunction (name : String)
  | unknownVariable (name : String)
  | other (message : String)

def Token.mention (t : Token) : String :=
  "token \"" ++ t.kind.label ++ "\" of value \"" ++ t.value.text ++ "\""

def Fault.message : Fault → String
  | unexpectedCharacter c => "Unexpected character \"" ++ c.toString ++ "\""
  | unexpectedClosing c => "Unexpected \"" ++ c.toString ++ "\""
  | unclosed c => "Unclosed \"" ++ c.toString ++ "\""
  | unexpectedEnd => "Unexpected end of expression"
  | unexpectedToken found => "Unexpected " ++ found.mention
  | expectedToken context found kind text =>
    (match context with
      | some context => context ++ ". "
      | none => "") ++
    "Unexpected " ++ found.mention ++ " (\"" ++ kind.label ++ "\" expected" ++
    (match text with
      | some text => " with value \"" ++ text ++ "\""
      | none => "") ++ ")"
  | expectedName => "Expected name"
  | badHashKey found =>
    "A hash key must be a quoted string, a number, a name, or an expression enclosed in " ++
      "parentheses (unexpected " ++ found.mention
  | nestedTooDeeply => "Expression is nested too deeply"
  | unknownFunction name => "The function \"" ++ name ++ "\" does not exist"
  | unknownVariable name => "Variable \"" ++ name ++ "\" is not valid"
  | other message => message

/-- A fault with its place. When a name is unknown it is the subject, and the proposals are the
names that it could have been. -/
structure SyntaxError where
  fault : Fault
  cursor : Nat
  expression : String
  subject : Option String := none
  proposals : List String := []

namespace SyntaxError

/-- The first of the nearest proposals, if fewer than three edits lead to it. -/
def suggestion? (e : SyntaxError) : Option String := do
  let subject ← e.subject
  let (proposal, distance) ← Text.nearest? subject e.proposals
  if distance < 3 then some proposal else none

def message (e : SyntaxError) : String :=
  "SyntaxError: " ++ e.fault.message ++ " around position " ++ toString e.cursor ++
  (if e.expression == "" then "" else " for expression \x60" ++ e.expression ++ "\x60") ++ "." ++
  (match e.suggestion? with
    | some proposal => " Did you mean \"" ++ proposal ++ "\"?"
    | none => "")

end SyntaxError
end Formula
