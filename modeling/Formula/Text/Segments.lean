/-! The parts of a text between the places where a character stands. -/

namespace Formula.Text

/-- There is always one part more than there are separators. -/
def segments (separator : Char) : List Char → List (List Char)
  | [] => [[]]
  | c :: cs =>
    if c == separator then [] :: segments separator cs
    else match segments separator cs with
      | [] => [[c]]
      | part :: parts => (c :: part) :: parts

theorem segments_ne_nil (separator : Char) (cs : List Char) : segments separator cs ≠ [] := by
  cases cs with
  | nil => simp [segments]
  | cons c cs =>
    rw [segments]
    split
    · simp
    · split <;> simp

end Formula.Text
