import Formula.Value

/-! The variables that an expression may mention, and the checks that may be left out. -/

namespace Formula

/-- A variable is written as it is called, or under an alias: then its value is that of the key. -/
inductive Variable
  | plain (name : String)
  | aliased (key name : String)
deriving DecidableEq, Repr

namespace Variable

def display : Variable → String
  | plain name => name
  | aliased key name => key ++ ":" ++ name

/-- The name that it is written by. -/
def spelling : Variable → String
  | plain name => name
  | aliased _ name => name

def isAlias : Variable → Bool
  | plain _ => false
  | aliased _ _ => true

/-- A string names a variable; an object with one field, from key to name, an alias. -/
def ofValue? : Value → Option Variable
  | .string name => some (plain name)
  | .object [(key, .string name)] => some (aliased key name)
  | _ => none

end Variable

/-- Whether a parse lets unknown names pass. -/
structure Leniency where
  unknownVariables : Bool := false
  unknownFunctions : Bool := false
deriving DecidableEq, Repr

namespace Leniency

def ofBits (n : Nat) : Leniency := ⟨n % 2 == 1, n / 2 % 2 == 1⟩

def bits (l : Leniency) : Nat :=
  (if l.unknownVariables then 1 else 0) + if l.unknownFunctions then 2 else 0

theorem ofBits_bits (l : Leniency) : ofBits l.bits = l := by
  obtain ⟨v, f⟩ := l
  cases v <;> cases f <;> rfl

end Leniency
end Formula
