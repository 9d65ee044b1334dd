/-! Whether one text stands in another. -/

namespace Formula.Text

def isInfix (needle : List Char) : List Char → Bool
  | [] => needle.isEmpty
  | c :: cs => needle.isPrefixOf (c :: cs) || isInfix needle cs

end Formula.Text
