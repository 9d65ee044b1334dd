import Formula.Variable

/-! What a parse knows of the names around an expression. -/

namespace Formula

/-- The functions and the spellings of variables that are declared, in order, and the key of each
alias. -/
structure Scope where
  functions : List String
  spellings : List String
  aliases : Dict String
  leniency : Leniency

namespace Scope

/-- An alias declares its key as well. -/
def spellingsOf : List Variable → List String
  | [] => []
  | .plain name :: vs => name :: spellingsOf vs
  | .aliased key name :: vs => key :: name :: spellingsOf vs

/-- Of two aliases with one spelling the later one counts. -/
def aliasesOf (vs : List Variable) : Dict String :=
  vs.foldl (fun d v => match v with
    | .plain _ => d
    | .aliased key name => d.put name key) []

/-- Without declarations no variable is checked. -/
def ofVariables (functions : List String) (declared : Option (List Variable))
    (leniency : Leniency) : Scope :=
  match declared with
  | some vs => ⟨functions, spellingsOf vs, aliasesOf vs, leniency⟩
  | none => ⟨functions, [], [], { leniency with unknownVariables := true }⟩

/-- The key under which a spelling is looked up. -/
def key (scope : Scope) (spelling : String) : String := (scope.aliases.get? spelling).getD spelling

end Scope
end Formula
