import Formula.Expr

/-! List and hash literals that are built element by element. An element without a key gets the next
free index as its key, and a single explicit key makes the literal a hash. -/

namespace Formula.Expr

/-- The elements with their keys; `next` is the first index that is free. -/
def keyed (next : Nat) : List (Option Expr × Expr) → List (Expr × Expr)
  | [] => []
  | (some key, value) :: elements => (key, value) :: keyed next elements
  | (none, value) :: elements =>
    (literal (.int (Int64.ofNat next)), value) :: keyed (next + 1) elements

def ofElements (isHash : Bool) (elements : List (Option Expr × Expr)) : Expr :=
  if isHash || elements.any (·.1.isSome) then hash (keyed 0 elements)
  else list (elements.map Prod.snd)

/-- The items of a list, each under its index. -/
def indexed (items : List Expr) : List (Expr × Expr) := keyed 0 (items.map (none, ·))

end Formula.Expr
