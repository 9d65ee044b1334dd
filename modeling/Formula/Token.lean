import Formula.Value.Equality

/-! Tokens: what kind of lexeme they are, what they carry and where they start. -/

namespace Formula

inductive TokenKind
  | ending
  | name
  | number
  | string
  | operator
  | punctuation
deriving DecidableEq, Repr

def TokenKind.label : TokenKind → String
  | ending => "end of expression"
  | name => "name"
  | number => "number"
  | string => "string"
  | operator => "operator"
  | punctuation => "punctuation"

/-- The cursor counts characters from one. Tokens that are read from text carry a number when they
are numbers, null at the end, and a string otherwise. -/
structure Token where
  kind : TokenKind
  value : Value
  cursor : Nat

namespace Token

def ending (cursor : Nat) : Token := ⟨.ending, .null, cursor⟩

def text? (t : Token) : Option String :=
  match t.value with
  | .string s => some s
  | _ => none

/-- Whether the token is of a kind and carries a text, if one is asked for. -/
def carries (t : Token) (kind : TokenKind) (text : Option String) : Bool :=
  t.kind == kind && (text.isNone || t.text? == text)

def isPunctuation (t : Token) (text : String) : Bool := t.carries .punctuation (some text)

/-- Same kind and place, and loosely equal values. -/
def matching (a b : Token) : Bool :=
  a.kind == b.kind && a.cursor == b.cursor && a.value.looseEq b.value

/-- What sets `a` apart from `b`, the other side first. -/
def differences (a b : Token) : List String :=
  if a.matching b then []
  else
    (if a.value.strictEq b.value then []
      else ["Value: " ++ b.value.text ++ " != " ++ a.value.text]) ++
    (if a.cursor == b.cursor then []
      else ["Cursor: " ++ toString b.cursor ++ " != " ++ toString a.cursor]) ++
    (if a.kind == b.kind then [] else ["Type: " ++ b.kind.label ++ " != " ++ a.kind.label])

def display (t : Token) : String :=
  toString t.cursor ++ " [" ++ t.kind.label ++ "] " ++ t.value.text

end Token
end Formula
