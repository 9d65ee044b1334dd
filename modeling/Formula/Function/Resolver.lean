import Formula.Text.Segments
import Formula.Value

/-! How the host tells the values behind dotted paths such as `Status.ACTIVE`. -/

namespace Formula

abbrev Resolver := String → Option Value

namespace Resolver

/-- Descends through nested objects. -/
def descend (value : Value) : List String → Option Value
  | [] => some value
  | key :: keys => match value with
    | .object fields => (Dict.get? fields key).bind fun v => descend v keys
    | _ => none

/-- Follows a path from the names of a tree of objects. -/
def ofTree (root : Dict Value) : Resolver := fun path =>
  descend (.object root) ((Text.segments '.' path.toList).map String.ofList)

/-- Knows whole paths only; of equal ones the first counts. -/
def ofPaths (paths : List (String × Value)) : Resolver := fun path => Dict.get? paths path

end Resolver
end Formula
