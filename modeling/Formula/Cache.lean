import Formula.Expr

/-! Stores for parsed expressions, by key. -/

namespace Formula

/-- An expression with its tree. The stamp tells it from others that were parsed from the same
text. -/
structure Parsed where
  source : String
  tree : Expr
  stamp : Nat := 0

inductive CacheError
  | emptyKey
  | reservedCharacter (key : String) (reserved : Char)
deriving DecidableEq, Repr

def CacheError.message : CacheError → String
  | emptyKey => "Cache key length must be greater than zero"
  | reservedCharacter key reserved =>
    "Cache key \"" ++ key ++ "\" contains reserved character \"" ++ reserved.toString ++ "\"."

/-- What a look-up gives and a save takes. An item may have a time of its own at which
it expires. -/
structure CacheItem where
  key : String
  value : Option Parsed := none
  isHit : Bool := false
  expiry : Option Nat := none

namespace CacheItem

def hit (key : String) (value : Parsed) : CacheItem := { key, value := some value, isHit := true }

def withValue (item : CacheItem) (value : Parsed) : CacheItem := { item with value := some value }

def expiringAt (item : CacheItem) (time : Nat) : CacheItem := { item with expiry := some time }

end CacheItem

/-- A store in some state. A save tells whether the item was stored. -/
class Cache (σ : Type) where
  lookup : σ → String → Except CacheError CacheItem × σ
  save : σ → CacheItem → Except CacheError Bool × σ
  has : σ → String → Except CacheError Bool × σ
  delete : σ → String → Except CacheError Bool × σ
  clear : σ → Bool × σ

def reservedCharacters : List Char := ['\x7b', '\x7d', '(', ')', '/', '\\', '@', ':']

/-- A key is not empty and has no reserved character. -/
def validateKey (key : String) : Except CacheError Unit :=
  if key == "" then .error .emptyKey
  else match key.toList.find? reservedCharacters.contains with
    | some c => .error (.reservedCharacter key c)
    | none => .ok ()

/-- Does something for a valid key, and nothing for another. -/
def withValidKey {σ α : Type} (key : String) (s : σ) (f : α × σ) : Except CacheError α × σ :=
  match validateKey key with
  | .ok () => (.ok f.1, f.2)
  | .error e => (.error e, s)

end Formula
