import Formula.Outcome

/-! Functions that expressions may call by name. Each has two halves: one makes JavaScript source of
the sources of its arguments, the other computes a value. -/

namespace Formula

/-- A value is computed here, or by a function of the host. -/
inductive Body
  | computed (run : Context → List Value → Except EvalError Value)
  | hosted (function : String)

structure Function where
  name : String
  script : List String → String
  body : Body

def Function.apply (f : Function) (host : Host) (context : Context) (arguments : List Value) :
    Outcome Value :=
  match f.body with
  | .computed run => .ofExcept (run context arguments)
  | .hosted function => .call host function arguments

end Formula
