import Formula.Cache
import Formula.Cache.Key
import Formula.Evaluation
import Formula.Parsing
import Formula.Script

/-! A language as a host uses it: its functions, and a store for what it has parsed. Parsing,
compiling and evaluating freeze the functions. -/

namespace Formula

/-- The next parse gets the stamp `nextStamp`. -/
structure Language (σ : Type) where
  cache : σ
  functions : Registry
  nextStamp : Nat := 0

inductive LanguageError
  | malformed (e : SyntaxError)
  | frozen (e : FrozenError)
  | cache (e : CacheError)

def LanguageError.message : LanguageError → String
  | malformed e => e.message
  | frozen e => e.message
  | cache e => e.message

/-- An operation on a language; what it did stays done when it fails. -/
abbrev Session (σ : Type) := ExceptT LanguageError (StateM (Language σ))

/-- An expression that is still to be parsed, or one that was. -/
inductive Input
  | text (source : String)
  | parsed (p : Parsed)

def Input.source : Input → String
  | text source => source
  | parsed p => p.source

namespace Language

variable {σ : Type}

def withCache (cache : σ) : Language σ := { cache, functions := .withBuiltins none }

/-- A language with the functions of several providers, in order. -/
def withProviders (cache : σ) (providers : List (List Function)) : Language σ :=
  { cache, functions := providers.flatten.foldl Registry.put (.withBuiltins none) }

/-- Lets `constant` and `enum` ask a resolver. -/
def withResolver (l : Language σ) (resolver : Resolver) : Except FrozenError (Language σ) :=
  if l.functions.isFrozen then .error {}
  else .ok { l with functions := l.functions.setResolver resolver }

def register (f : Function) : Session σ Unit := do
  match (← get).functions.register f with
  | .ok functions => modify ({ · with functions })
  | .error e => throw (.frozen e)

/-- Registers functions one after another, up to the first that fails. -/
def registerAll : List Function → Session σ Unit
  | [] => return
  | f :: fs => do
    register f
    registerAll fs

def freeze : Session σ Unit :=
  modify fun l => { l with functions := l.functions.freeze }

/-- A parsed expression with a stamp that no other one of the language has. -/
def stamp (source : String) (tree : Expr) : Session σ Parsed := do
  let l ← get
  set { l with nextStamp := l.nextStamp + 1 }
  return ⟨source, tree, l.nextStamp⟩

section

variable [Cache σ]

def lookup (key : String) : Session σ CacheItem := do
  let l ← get
  let (result, cache) := Cache.lookup l.cache key
  set { l with cache }
  match result with
  | .ok item => return item
  | .error e => throw (.cache e)

/-- Stores an item; that the store refuses it or fails does no harm. -/
def store (item : CacheItem) : Session σ Unit :=
  modify fun l => { l with cache := (Cache.save l.cache item).2 }

/-- The tree of a text, without the store. -/
def parseAnew (source : String) (declared : Option (List Variable)) (leniency : Leniency) :
    Session σ Expr := do
  let scope := Scope.ofVariables (← get).functions.names declared leniency
  match parseText scope source with
  | .ok tree => return tree
  | .error e => throw (.malformed e)

/-- Parses a text, unless it is stored. -/
def parse (input : Input) (declared : List Variable) (leniency : Leniency) : Session σ Parsed :=
  match input with
  | .parsed p => return p
  | .text source => do
    freeze
    let item ← lookup (cacheKey source declared leniency)
    match item.value with
    | some p => return p
    | none => do
      let tree ← parseAnew source (some declared) leniency
      let p ← stamp source tree
      store (item.withValue p)
      return p

/-- The JavaScript source of an expression. -/
def compile (input : Input) (declared : List Variable) : Session σ String := do
  let p ← parse input declared {}
  return p.tree.script (← get).functions

/-- The value of an expression, which may mention the variables of the context. -/
def evaluate (host : Host) (input : Input) (context : Context) : Session σ (Outcome Value) := do
  let p ← parse input (context.keys.map .plain) {}
  return p.tree.eval host (← get).functions context

/-- Checks a text. Without declarations variables are not checked. -/
def lint (input : Input) (declared : Option (List Variable)) (leniency : Leniency) :
    Session σ Unit :=
  match input with
  | .parsed _ => return
  | .text source => do
    freeze
    let _ ← parseAnew source declared leniency

end

end Language
end Formula
