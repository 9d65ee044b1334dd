import Formula.Cache.Timed
import Formula.Expr.Outline
import Formula.Json.Reading
import Formula.Json.Text
import Formula.Language

/-! Commands on a single expression, whose values are given in JSON. -/

namespace Formula
namespace CommandLine

inductive Command
  | evaluate
  | compile
  | lint
  | tokens
  | parse
deriving DecidableEq, Repr

/-- A command with the texts it works on. With `anyName` a check lets all variables pass. -/
structure Request where
  command : Command
  expression : String
  names : List String := []
  values : Option String := none
  leniency : Leniency := {}
  anyName : Bool := false

inductive Answer
  | valid
  | source (text : String)
  | value (j : Json)

inductive CommandError
  | language (e : LanguageError)
  | evaluation (e : EvalError)
  | invalidJson
  | valuesNotObject (kind : Kind)
  | invalidName (text : String)

def CommandError.message : CommandError → String
  | language e => e.message
  | evaluation e => e.message
  | invalidJson => "Invalid JSON"
  | valuesNotObject kind => "Values must be a JSON object, got " ++ kind.name
  | invalidName text => "Invalid name \"" ++ text ++ "\": expected NAME or KEY:NAME"

/-- A name, or a key and a name with a colon between them. -/
def readVariable (text : String) : Except CommandError Variable :=
  match text.toList.span (· != ':') with
  | (_ :: _, []) => .ok (.plain text)
  | (k :: key, _ :: n :: name) =>
    .ok (.aliased (String.ofList (k :: key)) (String.ofList (n :: name)))
  | _ => .error (.invalidName text)

def readValues : Option String → Except CommandError Context
  | none => .ok []
  | some text => match Json.read? text with
    | none => .error .invalidJson
    | some j => match j.toValue with
      | .object fields => .ok fields
      | v => .error (.valuesNotObject v.kind)

/-- No value that JSON describes holds a function. -/
def noHost : Host := fun _ _ => .ok .null

/-- The result of a session with a language that has parsed nothing yet. -/
def inFreshLanguage {α : Type} (session : Session TimedCache α) : Except CommandError α :=
  (session.run (Language.withCache {})).1.mapError .language

def Request.execute (r : Request) : Except CommandError Answer := do
  let declared ← r.names.mapM readVariable
  let input := Input.text r.expression
  match r.command with
  | .evaluate => do
    let context ← readValues r.values
    let outcome ← inFreshLanguage (Language.evaluate noHost input context)
    return .value (.ofValue (← outcome.result.mapError .evaluation))
  | .compile => return .source (← inFreshLanguage (Language.compile input declared))
  | .lint => do
    inFreshLanguage (Language.lint input (if r.anyName then none else some declared) r.leniency)
    return .valid
  | .tokens => do
    let stream ← (tokenize r.expression).mapError fun e => .language (.malformed e)
    return .source stream.display
  | .parse => do
    let p ← inFreshLanguage (Language.parse input declared r.leniency)
    return .source p.tree.outline

end CommandLine
end Formula
