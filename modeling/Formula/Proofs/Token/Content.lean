import Formula.Parsing

/-! What tokens say, apart from where they stand. -/

namespace Formula

structure Content where
  kind : TokenKind
  value : Value

def Token.content (t : Token) : Content := ⟨t.kind, t.value⟩

namespace Content

def token (c : Content) (cursor : Nat) : Token := ⟨c.kind, c.value, cursor⟩

def mark (s : String) : Content := ⟨.punctuation, .string s⟩

def name (s : String) : Content := ⟨.name, .string s⟩

def operator (s : String) : Content := ⟨.operator, .string s⟩

def ending : Content := ⟨.ending, .null⟩

/-- Contents with commas between them. -/
def separated : List (List Content) → List Content
  | [] => []
  | cs :: css => cs ++ css.flatMap (mark "," :: ·)

def enclosed (opening : Char) (cs : List Content) : List Content :=
  mark opening.toString :: (cs ++ [mark (Lexer.closing opening).toString])

def accessMark (nullSafe : Bool) : Content := mark (if nullSafe then "?." else ".")

def isMark (c : Content) (s : String) : Bool := (c.token 0).isPunctuation s

def binaryOp? (c : Content) : Option BinaryOp := Parsing.binaryOp? (c.token 0)

def unaryOp? (c : Content) : Option UnaryOp := Parsing.unaryOp? (c.token 0)

/-- A mark that an access step begins with. -/
def isAccess (c : Content) : Bool := c.isMark "." || c.isMark "?." || c.isMark "["

/-- Whether `c` belongs to an operand that it follows. -/
def attaches (c : Content) : Bool := c.isAccess || c.isMark "("

/-- Whether a full expression goes on with `c` after an operand. -/
def goesOn (c : Content) : Bool :=
  c.attaches || c.binaryOp?.isSome || c.isMark "??" || c.isMark "?"

@[simp] theorem isPunctuation_token (c : Content) (cursor : Nat) (s : String) :
    (c.token cursor).isPunctuation s = c.isMark s := rfl

@[simp] theorem binaryOp?_token (c : Content) (cursor : Nat) :
    Parsing.binaryOp? (c.token cursor) = c.binaryOp? := rfl

@[simp] theorem unaryOp?_token (c : Content) (cursor : Nat) :
    Parsing.unaryOp? (c.token cursor) = c.unaryOp? := rfl

@[simp] theorem isMark_mark (s t : String) : (mark s).isMark t = (s == t) := by
  simp [mark, isMark, token, Token.isPunctuation, Token.carries, Token.text?]

theorem isMark_iff {c : Content} {s : String} : c.isMark s = true ↔ c = mark s := by
  obtain ⟨kind, value⟩ := c
  cases value <;> simp [isMark, token, Token.isPunctuation, Token.carries, Token.text?, mark]

theorem isMark_of_kind {c : Content} (h : c.kind ≠ .punctuation) (s : String) :
    c.isMark s = false := by
  simp [isMark, token, Token.isPunctuation, Token.carries, h]

theorem binaryOp?_of_kind {c : Content} (h : c.kind ≠ .operator) : c.binaryOp? = none := by
  simp [binaryOp?, token, Parsing.binaryOp?, h]

theorem unaryOp?_of_kind {c : Content} (h : c.kind ≠ .operator) : c.unaryOp? = none := by
  simp [unaryOp?, token, Parsing.unaryOp?, h]

@[simp] theorem unaryOp?_operator (s : String) :
    (operator s).unaryOp? = UnaryOp.ofSymbol? s := rfl

@[simp] theorem unaryOp?_mark (s : String) : (mark s).unaryOp? = none := rfl

theorem goesOn_eq_false_iff {c : Content} : c.goesOn = false ↔
    c.attaches = false ∧ c.binaryOp? = none ∧ c.isMark "??" = false ∧ c.isMark "?" = false := by
  simp [goesOn, and_assoc]

theorem goesOn_of_ending {c : Content} (h : c.kind = .ending) : c.goesOn = false := by
  have hop : c.kind ≠ .operator := by simp [h]
  have hpunct : c.kind ≠ .punctuation := by simp [h]
  simp [goesOn, attaches, isAccess, isMark_of_kind hpunct, binaryOp?_of_kind hop]

end Content
end Formula
