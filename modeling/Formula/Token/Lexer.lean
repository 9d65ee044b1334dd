import Formula.Token.Stream

/-! Reading the tokens of a text. At each place one recogniser decides what stands there and how
long it is; the scan then leaves that many characters behind and keeps account of the open
brackets. -/

namespace Formula.Lexer

/-- Line ends, tabs and page breaks count as spaces. -/
def normalize (c : Char) : Char :=
  if c == '\r' || c == '\n' || c == '\t' || c == '\x0b' || c == '\x0c' then ' ' else c

def isNameStart (c : Char) : Bool := c.isAlpha || c == '_' || '\x7f' ≤ c

def isNameChar (c : Char) : Bool := isNameStart c || c.isDigit

/-- What stands at the head of a text: nothing that counts, or a token. -/
inductive Lexeme
  | gap (length : Nat)
  | token (kind : TokenKind) (value : Value) (length : Nat)

def Lexeme.length : Lexeme → Nat
  | gap length => length
  | token _ _ length => length

/-- The length of the rest of a comment; without its end mark it takes the whole text. -/
def commentLength : List Char → Nat
  | [] => 0
  | '*' :: '/' :: _ => 2
  | _ :: cs => commentLength cs + 1

def startsWithDigit : List Char → Bool
  | c :: _ => c.isDigit
  | [] => false

/-- The length of a run of digits with single underscores between them. -/
def digitsLength (started : Bool) : List Char → Nat
  | [] => 0
  | c :: cs =>
    if c.isDigit then digitsLength true cs + 1
    else if c == '_' && started && startsWithDigit cs then digitsLength true cs + 1
    else 0

def fractionLength : List Char → Nat
  | '.' :: cs => match digitsLength false cs with
    | 0 => 0
    | n + 1 => n + 2
  | _ => 0

def signLength : List Char → Nat
  | '+' :: _ => 1
  | '-' :: _ => 1
  | _ => 0

def exponentLength : List Char → Nat
  | [] => 0
  | c :: cs =>
    if c == 'e' || c == 'E' then
      match digitsLength false (cs.drop (signLength cs)) with
      | 0 => 0
      | n + 1 => n + 2 + signLength cs
    else 0

/-- A run of digits is a whole number if 64 bits hold it; other number lexemes are floats. -/
def numberValue (isWhole : Bool) (lexeme : List Char) : Value :=
  let digits := lexeme.filter (· != '_')
  let float := Value.float ((Number.readDecimal? digits).getD Number.nan)
  if isWhole then (Number.int64? (Number.natOfDigits digits)).elim float .int else float

def readNumber? (cs : List Char) : Option Lexeme :=
  let whole := digitsLength false cs
  let fraction := fractionLength (cs.drop whole)
  let mantissa := whole + fraction
  if mantissa == 0 then none
  else
    let exponent := exponentLength (cs.drop mantissa)
    let length := mantissa + exponent
    some (.token .number (numberValue (fraction + exponent == 0) (cs.take length)) length)

/-- The characters up to the closing quote, and the length of their spelling with that quote. A
backslash hides the quote and another backslash; before anything else it stands for itself. -/
def readQuoted? (quote : Char) : List Char → Option (List Char × Nat)
  | [] => none
  | '\\' :: cs => match cs with
    | [] => none
    | c :: cs => (readQuoted? quote cs).map fun (s, n) =>
      (if c == quote || c == '\\' then c :: s else '\\' :: c :: s, n + 2)
  | c :: cs =>
    if c == quote then some ([], 1)
    else (readQuoted? quote cs).map fun (s, n) => (c :: s, n + 1)

def readString? (quote : Char) (cs : List Char) : Option Lexeme :=
  (readQuoted? quote cs).map fun (s, n) => .token .string (.string (String.ofList s)) (n + 1)

def readName? : List Char → Option Lexeme
  | [] => none
  | c :: cs =>
    if isNameStart c then
      let name := c :: cs.takeWhile isNameChar
      some (.token .name (.string (String.ofList name)) name.length)
    else none

/-- No operator stands before one that it begins. -/
def operators : List String :=
  ["starts with", "ends with", "contains", "matches", "not in", "===", "!==", "and", "not", "xor",
    "&&", "||", "or", "**", "==", "!=", "<=", ">=", "..", "in", "+", "-", "*", "/", "%", "&", "|",
    "^", "<", ">", "!", "~"]

/-- The text behind `lexeme`, if it stands at the head. -/
def dropLexeme? : List Char → List Char → Option (List Char)
  | [], cs => some cs
  | l :: ls, c :: cs => if l == c then dropLexeme? ls cs else none
  | _ :: _, [] => none

def isWord : List Char → Bool
  | c :: _ => c.isAlpha
  | [] => false

/-- An operator that is a word ends before a space or an opening parenthesis. -/
def standsAlone : List Char → Bool
  | c :: _ => c == ' ' || c == '('
  | [] => false

def isOperatorAt (cs : List Char) (operator : String) : Bool :=
  match dropLexeme? operator.toList cs with
  | some rest => !isWord operator.toList || standsAlone rest
  | none => false

def readOperator? (cs : List Char) : Option Lexeme :=
  (operators.find? (isOperatorAt cs)).map fun op => .token .operator (.string op) op.length

def punctuation (s : String) (length : Nat) : Lexeme := .token .punctuation (.string s) length

/-- After an access mark a name is a member name, even if it is spelled like an operator. A mark of
null-safe access is none before a digit, where a condition and a decimal stand. -/
def readSymbol? (afterAccess : Bool) (cs : List Char) : Option Lexeme :=
  let mark? := match cs with
    | '?' :: '.' :: rest =>
      some (if startsWithDigit rest then punctuation "?" 1 else punctuation "?." 2)
    | '?' :: '?' :: _ => some (punctuation "??" 2)
    | c :: _ =>
      if c == '.' || c == ',' || c == '?' || c == ':' then some (punctuation c.toString 1) else none
    | [] => none
  (if afterAccess then readName? cs else none) <|> readOperator? cs <|> mark? <|> readName? cs

def isOpening (c : Char) : Bool := c == '(' || c == '[' || c == '{'

def isClosing (c : Char) : Bool := c == ')' || c == ']' || c == '}'

def closing : Char → Char
  | '(' => ')'
  | '[' => ']'
  | _ => '}'

/-- What stands at the head of a text. -/
def readLexeme? (afterAccess : Bool) : List Char → Option Lexeme
  | [] => none
  | ' ' :: _ => some (.gap 1)
  | '/' :: '*' :: cs => some (.gap (commentLength cs + 2))
  | c :: cs =>
    readNumber? (c :: cs) <|>
    if isOpening c || isClosing c then some (punctuation c.toString 1)
    else if c == '"' || c == '\'' then readString? c cs
    else if c == '\\' && cs.head? == some '\\' then some (punctuation "\\" 2)
    else readSymbol? afterAccess (c :: cs)

/-- Opening brackets that are not closed yet, the innermost first, each with its place. -/
abbrev Brackets := List (Char × Nat)

/-- Opens or closes a bracket. A closing bracket of the wrong kind is blamed on the opening one. -/
def track (cursor : Nat) (c : Char) (brackets : Brackets) : Except (Nat × Fault) Brackets :=
  if isOpening c then .ok ((c, cursor) :: brackets)
  else if isClosing c then
    match brackets with
    | [] => .error (cursor, .unexpectedClosing c)
    | (opening, place) :: rest =>
      if closing opening == c then .ok rest else .error (place, .unclosed opening)
  else .ok brackets

def isAccess (kind : TokenKind) (value : Value) : Bool :=
  kind == .punctuation &&
    match value with
    | .string s => s == "." || s == "?."
    | _ => false

/-- Reads tokens from the character at `cursor` on, after `skip` characters that are spoken for. -/
def scan (cursor : Nat) (brackets : Brackets) (afterAccess : Bool) :
    (skip : Nat) → List Char → Except (Nat × Fault) (List Token)
  | _, [] => match brackets with
    | [] => .ok [Token.ending cursor]
    | (opening, place) :: _ => .error (place, .unclosed opening)
  | skip + 1, _ :: cs => scan (cursor + 1) brackets afterAccess skip cs
  | 0, c :: cs => match readLexeme? afterAccess (c :: cs) with
    | none => .error (cursor, .unexpectedCharacter c)
    | some (.gap length) => scan (cursor + 1) brackets afterAccess (length - 1) cs
    | some (.token kind value length) => do
      let brackets ← track cursor c brackets
      let rest ← scan (cursor + 1) brackets (isAccess kind value) (length - 1) cs
      return ⟨kind, value, cursor⟩ :: rest

end Lexer

/-- The tokens of a text. The stream and its errors quote the text with plain spaces. -/
def tokenize (text : String) : Except SyntaxError TokenStream :=
  let cs := text.toList.map Lexer.normalize
  let expression := String.ofList cs
  match Lexer.scan 1 [] false 0 cs with
  | .ok tokens => .ok (TokenStream.ofTokens expression tokens)
  | .error (cursor, fault) => .error { fault, cursor, expression }

end Formula
