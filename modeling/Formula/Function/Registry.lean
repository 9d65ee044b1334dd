import Formula.Function.Builtin

/-! The functions that a language knows, in the order in which their names were first registered. -/

namespace Formula

/-- A frozen registry takes no more functions. -/
structure Registry where
  functions : Dict Function := []
  isFrozen : Bool := false

/-- The registry was frozen before. -/
structure FrozenError where
deriving DecidableEq, Repr

def FrozenError.message (_ : FrozenError) : String :=
  "LogicException: Registering functions after calling evaluate(), compile(), or parse() is not " ++
    "supported."

namespace Registry

/-- Puts a function in, frozen or not: for use while a language is set up. -/
def put (r : Registry) (f : Function) : Registry := { r with functions := r.functions.put f.name f }

def withBuiltins (resolver : Option Resolver) : Registry :=
  [Builtin.min, Builtin.max, Builtin.constant resolver, Builtin.enum resolver].foldl put {}

def register (r : Registry) (f : Function) : Except FrozenError Registry :=
  if r.isFrozen then .error {} else .ok (r.put f)

def freeze (r : Registry) : Registry := { r with isFrozen := true }

/-- Lets `constant` and `enum` ask a resolver, in place of whatever has these names. -/
def setResolver (r : Registry) (resolver : Resolver) : Registry :=
  (r.put (Builtin.constant resolver)).put (Builtin.enum resolver)

def get? (r : Registry) (name : String) : Option Function := r.functions.get? name

def names (r : Registry) : List String := r.functions.keys

/-- What holds of the functions of a registry holds after one of the kind is put in. -/
theorem forall_get?_put {P : Function → Prop} {r : Registry} {f : Function}
    (h : ∀ name g, r.get? name = some g → P g) (hf : P f) :
    ∀ name g, (r.put f).get? name = some g → P g := by
  intro name g hget
  have hdict : (r.functions.put f.name f).get? name = some g := hget
  by_cases hname : name = f.name
  · rw [hname, Dict.get?_put_self, Option.some_inj] at hdict
    exact hdict ▸ hf
  · rw [Dict.get?_put_of_ne _ _ hname] at hdict
    exact h name g hdict

def contains (r : Registry) (name : String) : Bool := r.names.contains name

end Registry
end Formula
