import Formula.Expr
import Formula.Function.Registry

/-! JavaScript source for a tree. Operators that JavaScript lacks become calls of helpers that the
host provides. -/

namespace Formula
namespace Script

/-- A string literal of JavaScript, without its opening quote. -/
def quotedChars : List Char → List Char
  | [] => ['"']
  | '"' :: cs => '\\' :: '"' :: quotedChars cs
  | '\\' :: cs => '\\' :: '\\' :: quotedChars cs
  | '\x00' :: cs => '\\' :: '0' :: quotedChars cs
  | '\t' :: cs => '\\' :: 't' :: quotedChars cs
  | '\n' :: cs => '\\' :: 'n' :: quotedChars cs
  | '\r' :: cs => '\\' :: 'r' :: quotedChars cs
  | c :: cs => c :: quotedChars cs

def quoted (s : String) : String := String.ofList ('"' :: quotedChars s.toList)

mutual

/-- A literal for a value; there is none for a function. -/
def ofValue : Value → String
  | .null | .function _ => "null"
  | .bool b => if b then "true" else "false"
  | .int n => toString n.toInt
  | .float x => Number.text x
  | .string s => quoted s
  | .array items => "[" ++ String.intercalate ", " (ofItems items) ++ "]"
  | .object fields => "\x7b" ++ String.intercalate ", " (ofFields fields) ++ "\x7d"

def ofItems : List Value → List String
  | [] => []
  | item :: items => ofValue item :: ofItems items

def ofFields : List (String × Value) → List String
  | [] => []
  | (key, value) :: fields => (quoted key ++ ": " ++ ofValue value) :: ofFields fields

end

def ofConstant (value : Value) (isIdentifier : Bool) : String :=
  if isIdentifier then value.text else ofValue value

/-- The body and the flags of a pattern literal, if JavaScript knows the flags. -/
def patternParts? (literal : String) : Option (List Char × List Char) :=
  match literal.toList with
  | '/' :: cs => do
    let (body, flags) ← Pattern.splitLastSlash? cs
    if body != [] && flags.all (['i', 'm', 's', 'u', 'g', 'y'].contains ·) then some (body, flags)
    else none
  | _ => none

/-- A pattern from a literal that is known, or from the source of another expression. -/
def pattern (literal? : Option String) (source : String) : String :=
  match literal? with
  | none => "toRegExp(" ++ source ++ ")"
  | some literal => match patternParts? literal with
    | some (body, flags) =>
      "new RegExp(" ++ quoted (String.ofList body) ++ ", " ++ quoted (String.ofList flags) ++ ")"
    | none => "toRegExp(" ++ quoted literal ++ ")"

def stringConstant? : Expr → Option String
  | .const (.string s) _ => some s
  | _ => none

def lowered (source : String) : String := "String(" ++ source ++ ").toLowerCase()"

/-- An operator applied to the sources of its operands. A null subject matches no pattern. -/
def binary (op : BinaryOp) (left right : String) (literal? : Option String) : String :=
  match op.script? with
  | some symbol => "(" ++ left ++ " " ++ symbol ++ " " ++ right ++ ")"
  | none => match op with
    | .xor => "(!(" ++ left ++ ") !== !(" ++ right ++ "))"
    | .concat => "(\"\" + " ++ left ++ " + " ++ right ++ ")"
    | .power => "Math.pow(" ++ left ++ ", " ++ right ++ ")"
    | .range => "range(" ++ left ++ ", " ++ right ++ ")"
    | .isIn => "includes(" ++ left ++ ", " ++ right ++ ")"
    | .notIn => "!includes(" ++ left ++ ", " ++ right ++ ")"
    | .matching =>
      "((subject, re) => subject != null && re.test(subject))(" ++ left ++ ", " ++
        pattern literal? right ++ ")"
    | .contains => lowered left ++ ".includes(" ++ lowered right ++ ")"
    | .startsWith => lowered left ++ ".startsWith(" ++ lowered right ++ ")"
    | .endsWith => lowered left ++ ".endsWith(" ++ lowered right ++ ")"
    | _ => ""

def call (functions : Registry) (name : String) (arguments : List String) : String :=
  match functions.get? name with
  | some f => f.script arguments
  | none => name ++ "(" ++ String.intercalate ", " arguments ++ ")"

/-- Objects below which a chain to the left of `??` goes on with null-safe steps. -/
def isChainObject : Expr → Bool
  | .access _ _ _ _ _ | .name _ => true
  | _ => false

mutual

/-- The source of a tree; `chained` is set for the left side of `??` and the objects of its access
steps. -/
def ofExpr (functions : Registry) (chained : Bool) : Expr → String
  | .const value isIdentifier => ofConstant value isIdentifier
  | .name n => n
  | .coalescedName n => n ++ " ?? null"
  | .unary op e => "(" ++ op.script ++ ofExpr functions false e ++ ")"
  | .binary op left right =>
    binary op (ofExpr functions false left) (ofExpr functions false right) (stringConstant? right)
  | .conditional condition yes no =>
    "((" ++ ofExpr functions false condition ++ ") ? (" ++ ofExpr functions false yes ++ ") : (" ++
      ofExpr functions false no ++ "))"
  | .coalesce left fallback =>
    "((" ++ ofExpr functions true left ++ ") ?? (" ++ ofExpr functions false fallback ++ "))"
  | .access kind nullSafe object key arguments =>
    let optional := nullSafe || (chained && isChainObject object)
    ofExpr functions chained object ++
    match kind with
    | .property => (if optional then "?." else ".") ++ ofExpr functions false key
    | .method =>
      (if optional then "?." else ".") ++ ofExpr functions false key ++
        "(" ++ String.intercalate ", " (ofExprs functions arguments) ++ ")"
    | .index => (if optional then "?.[" else "[") ++ ofExpr functions false key ++ "]"
  | .list es => "[" ++ String.intercalate ", " (ofExprs functions es) ++ "]"
  | .hash entries => "\x7b" ++ String.intercalate ", " (ofEntries functions entries) ++ "\x7d"
  | .call name arguments => call functions name (ofExprs functions arguments)

def ofExprs (functions : Registry) : List Expr → List String
  | [] => []
  | e :: es => ofExpr functions false e :: ofExprs functions es

/-- A computed key stands in brackets. -/
def ofEntries (functions : Registry) : List (Expr × Expr) → List String
  | [] => []
  | (key, value) :: entries =>
    let k := ofExpr functions false key
    ((if key.isConst then k else "[" ++ k ++ "]") ++ ": " ++ ofExpr functions false value) ::
      ofEntries functions entries

end

theorem ofExprs_eq_map (functions : Registry) (es : List Expr) :
    ofExprs functions es = es.map (ofExpr functions false) := by
  induction es with
  | nil => simp [ofExprs]
  | cons e es ih => simp [ofExprs, ih]

/-- One entry of an object. -/
def entry (functions : Registry) (p : Expr × Expr) : String :=
  (if p.1.isConst then ofExpr functions false p.1 else "[" ++ ofExpr functions false p.1 ++ "]") ++
    ": " ++ ofExpr functions false p.2

theorem ofEntries_eq_map (functions : Registry) (es : List (Expr × Expr)) :
    ofEntries functions es = es.map (entry functions) := by
  induction es with
  | nil => simp [ofEntries]
  | cons p es ih => simp [ofEntries, entry, ih]

/-- Only the script of an access step depends on what it stands in. -/
theorem ofExpr_true_or_access (functions : Registry) (e : Expr) :
    ofExpr functions true e = ofExpr functions false e ∨
      ∃ kind nullSafe object key arguments, e = .access kind nullSafe object key arguments := by
  cases e with
  | access => exact .inr ⟨_, _, _, _, _, rfl⟩
  | _ => exact .inl (by simp only [ofExpr])

end Script

/-- The JavaScript source of a tree. -/
def Expr.script (functions : Registry) (e : Expr) : String := Script.ofExpr functions false e

end Formula
