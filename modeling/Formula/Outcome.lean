import Formula.EvalError

/-! Results of computations that may call functions of the host. -/

namespace Formula

/-- A call of a host function, noted when it starts. -/
structure Call where
  function : String
  arguments : List Value

/-- What the host's functions do. -/
abbrev Host := String → List Value → Except EvalError Value

/-- The calls that were made, in order, and what came of them. -/
structure Outcome (α : Type) where
  calls : List Call
  result : Except EvalError α

namespace Outcome

variable {α β : Type}

protected def pure (a : α) : Outcome α := ⟨[], .ok a⟩

/-- After a failure nothing more is called. -/
protected def bind (x : Outcome α) (f : α → Outcome β) : Outcome β :=
  match x.result with
  | .ok a => ⟨x.calls ++ (f a).calls, (f a).result⟩
  | .error e => ⟨x.calls, .error e⟩

instance : Monad Outcome where
  pure := Outcome.pure
  bind := Outcome.bind

def error (e : EvalError) : Outcome α := ⟨[], .error e⟩

def ofExcept (result : Except EvalError α) : Outcome α := ⟨[], result⟩

def call (host : Host) (function : String) (arguments : List Value) : Outcome Value :=
  ⟨[⟨function, arguments⟩], host function arguments⟩

end Outcome
end Formula
