import Formula.Token.Stream

/-! The state of a parse and its elementary steps. Beside the tokens it counts the expressions that
were begun and how many of them are open. -/

namespace Formula.Parsing

structure State where
  stream : TokenStream
  begun : Nat := 0
  depth : Nat := 0
  deepest : Nat := 0

/-- A failed parse leaves behind the state in which it failed. -/
abbrev Parser := EStateM SyntaxError State

def peek : Parser Token := do return (← get).stream.current

def fail {α : Type} (fault : Fault) (cursor : Nat) : Parser α := do
  throw { fault, cursor, expression := (← get).stream.expression }

/-- Goes on with a stream, or fails as it does. -/
def move (f : TokenStream → Except SyntaxError TokenStream) : Parser Unit := do
  let state ← get
  match f state.stream with
  | .ok stream => set { state with stream }
  | .error e => throw e

def advance : Parser Unit := move TokenStream.next

def check (text : String) : Parser Bool := do return (← peek).isPunctuation text

def expectPunctuation (text : String) (context : Option String) : Parser Unit :=
  move fun s => s.expect .punctuation (some text) context

/-- How the step of a loop ends. -/
inductive Progress (α β : Type)
  | again (a : α)
  | done (b : β)

def repeating {α β : Type} (step : α → Parser (Progress α β)) : Nat → α → Parser β
  | 0, _ => do fail .unexpectedEnd (← peek).cursor
  | n + 1, a => do match ← step a with
    | .again a => repeating step n a
    | .done b => return b

/-- Repeats a step that reads a token whenever it asks for another one: there are no more
repetitions than tokens ahead. -/
def loop {α β : Type} (step : α → Parser (Progress α β)) (a : α) : Parser β := do
  repeating step ((← get).stream.after.length + 1) a

end Formula.Parsing
