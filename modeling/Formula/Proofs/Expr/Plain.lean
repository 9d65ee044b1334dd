import Formula.Expr.Source
import Formula.Proofs.Token.Lexeme

/-! The trees whose source can be read back, and the contents of the tokens that it is made of. -/

namespace Formula

namespace Value

/-- Constants whose source is one token. Line ends, tabs and page breaks would be read as spaces. -/
def IsPlain : Value → Prop
  | null | bool _ => True
  | int n => 0 ≤ n.toInt
  | string s => ∀ c ∈ s.toList, c ∉ ['\t', '\n', '\x0b', '\x0c', '\r']
  | float _ | array _ | object _ | function _ => False

def content : Value → Content
  | null => .name "null"
  | bool b => .name (if b then "true" else "false")
  | value@(string _) => ⟨.string, value⟩
  | value => ⟨.number, value⟩

end Value

/-- A name that is neither an operator nor a constant. -/
def IsFreeName (name : String) : Prop :=
  Parsing.isIdentifier name = true ∧ name ∉ Lexer.operatorWords ∧ Parsing.constant? name = none

namespace Expr

/-- Whether a hash literal may have `key` as a key. -/
def IsKey : Expr → Prop
  | const (.string _) isIdentifier | const (.int _) isIdentifier => isIdentifier = false
  | const _ _ => False
  | _ => True

/-- Trees whose source can be read back; `??` may occur in them if `fallbacks` holds. -/
inductive IsPlain (fallbacks : Prop) : Expr → Prop
  | const {value} : value.IsPlain → IsPlain fallbacks (const value false)
  | name {n} : IsFreeName n → IsPlain fallbacks (name n)
  | unary (op) {e} : IsPlain fallbacks e → IsPlain fallbacks (unary op e)
  | binary (op) {l r} : IsPlain fallbacks l → IsPlain fallbacks r →
      IsPlain fallbacks (binary op l r)
  | conditional {c y n} : IsPlain fallbacks c → IsPlain fallbacks y → IsPlain fallbacks n →
      IsPlain fallbacks (conditional c y n)
  | coalesce {l r} : fallbacks → IsPlain fallbacks l → IsPlain fallbacks r →
      IsPlain fallbacks (coalesce l r)
  | property (nullSafe) {o member} : IsPlain fallbacks o → o.isConst = false →
      Parsing.isIdentifier member = true →
      IsPlain fallbacks (access .property nullSafe o (const (.string member) true) [])
  | method (nullSafe) {o member as} : IsPlain fallbacks o → o.isConst = false →
      Parsing.isIdentifier member = true → (∀ a ∈ as, IsPlain fallbacks a) →
      IsPlain fallbacks (access .method nullSafe o (const (.string member) true) as)
  | index (nullSafe) {o k} : IsPlain fallbacks o → o.isConst = false → IsPlain fallbacks k →
      IsPlain fallbacks (access .index nullSafe o k [])
  | list {es} : (∀ e ∈ es, IsPlain fallbacks e) → IsPlain fallbacks (list es)
  | hash {es} : (∀ p ∈ es, IsKey p.1) → (∀ p ∈ es, IsPlain fallbacks p.1) →
      (∀ p ∈ es, IsPlain fallbacks p.2) → IsPlain fallbacks (hash es)
  | call {f as} : IsFreeName f → (∀ a ∈ as, IsPlain fallbacks a) → IsPlain fallbacks (call f as)

end Expr

namespace Expr

open Content (enclosed separated accessMark)

mutual

/-- The contents of the tokens of the source. -/
def contents : Expr → List Content
  | const value isIdentifier => [if isIdentifier then .name value.text else value.content]
  | name n => [.name n]
  | coalescedName n => [.name n, .mark "??", .name "null"]
  | unary op operand => enclosed '(' (.operator op.symbol :: operand.contents)
  | binary op left right =>
    enclosed '(' (left.contents ++ .operator op.symbol :: right.contents)
  | conditional condition yes no =>
    enclosed '(' (condition.contents ++
      .mark "?" :: (yes.contents ++ .mark ":" :: no.contents))
  | coalesce left fallback =>
    enclosed '(' left.contents ++ .mark "??" :: enclosed '(' fallback.contents
  | access .property nullSafe object key _ =>
    object.contents ++ accessMark nullSafe :: key.contents
  | access .method nullSafe object key arguments =>
    object.contents ++ accessMark nullSafe ::
      (key.contents ++ enclosed '(' (separated (contentsOf arguments)))
  | access .index nullSafe object key _ =>
    object.contents ++ ((if nullSafe then [.mark "?."] else []) ++ enclosed '[' key.contents)
  | list items => enclosed '[' (separated (contentsOf items))
  | hash entries => enclosed '\x7b' (separated (entryContentsOf entries))
  | call function arguments => .name function :: enclosed '(' (separated (contentsOf arguments))

def contentsOf : List Expr → List (List Content)
  | [] => []
  | e :: es => e.contents :: contentsOf es

def entryContentsOf : List (Expr × Expr) → List (List Content)
  | [] => []
  | (key, value) :: entries =>
    ((if key.isConst then key.contents else enclosed '(' key.contents) ++
      .mark ":" :: value.contents) :: entryContentsOf entries

end

theorem contentsOf_eq_map (es : List Expr) : contentsOf es = es.map contents := by
  induction es with
  | nil => simp [contentsOf]
  | cons e es ih => simp [contentsOf, ih]

end Expr
end Formula
