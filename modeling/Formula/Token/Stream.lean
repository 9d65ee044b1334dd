import Formula.SyntaxError

/-! A cursor over the tokens of one expression. There is always a current token, and the last token
of a stream ends the expression. -/

namespace Formula

/-- The tokens before the current one are kept nearest first. -/
structure TokenStream where
  expression : String
  before : List Token
  current : Token
  after : List Token

namespace TokenStream

/-- Starts at the first token. An ending token is added behind the text if there is none. -/
def ofTokens (expression : String) (tokens : List Token) : TokenStream :=
  let ending := Token.ending (expression.length + 1)
  match tokens with
  | [] => ⟨expression, [], ending, []⟩
  | first :: rest =>
    let closed := (first :: rest).getLast?.any (·.kind == .ending)
    ⟨expression, [], first, if closed then rest else rest ++ [ending]⟩

def tokens (s : TokenStream) : List Token := s.before.reverse ++ s.current :: s.after

def position (s : TokenStream) : Nat := s.before.length

def last? (s : TokenStream) : Option Token := s.before.head?

def isEnd (s : TokenStream) : Bool := s.current.kind == .ending

def error (s : TokenStream) (fault : Fault) : SyntaxError :=
  { fault, cursor := s.current.cursor, expression := s.expression }

/-- Moves to the next token; the last one is never left. -/
def next (s : TokenStream) : Except SyntaxError TokenStream :=
  match s.after with
  | [] => .error (s.error .unexpectedEnd)
  | t :: rest => .ok { s with before := s.current :: s.before, current := t, after := rest }

/-- Moves past the current token, which has to be as told. -/
def expect (s : TokenStream) (kind : TokenKind) (text : Option String) (context : Option String) :
    Except SyntaxError TokenStream :=
  if s.current.carries kind text then s.next
  else .error (s.error (.expectedToken context s.current kind text))

def display (s : TokenStream) : String := String.intercalate "\n" (s.tokens.map Token.display)

end TokenStream
end Formula
