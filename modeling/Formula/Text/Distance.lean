/-! The edit distance of two texts, and the nearest of several texts. -/

namespace Formula.Text

/-- The next row of the distance table, right of the distance `left`: `corner` is the distance above
`left`, `above` holds the distances right of it. -/
def distanceRow (c : Char) (left corner : Nat) : List Char → List Nat → List Nat
  | d :: ds, up :: above =>
    let here := min (min (left + 1) (up + 1)) (corner + if c == d then 0 else 1)
    here :: distanceRow c here up ds above
  | _, _ => []

/-- Each row holds the distances of one beginning of the first text to all beginnings of the
second. -/
def distanceRows (ds : List Char) : List Char → Nat × List Nat → Nat × List Nat
  | [], row => row
  | c :: cs, (corner, above) =>
    distanceRows ds cs (corner + 1, distanceRow c (corner + 1) corner ds above)

/-- How many characters have to be put in, taken out or exchanged. -/
def distance (s t : String) : Nat :=
  let ds := t.toList
  let (corner, row) := distanceRows ds s.toList (0, List.range' 1 ds.length)
  row.getLast?.getD corner

/-- The first of the texts nearest to `s`, with its distance. -/
def nearest? (s : String) : List String → Option (String × Nat)
  | [] => none
  | t :: ts =>
    let d := distance s t
    match nearest? s ts with
    | some (u, e) => if e < d then some (u, e) else some (t, d)
    | none => some (t, d)

end Formula.Text
