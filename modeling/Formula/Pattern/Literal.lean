/-! Pattern literals `/body/flags`: the body ends at the last slash. -/

namespace Formula.Pattern

/-- Why a literal names no pattern; `malformed` stands for all that is wrong inside the body. -/
inductive Fault
  | noOpeningSlash
  | noClosingSlash
  | unknownFlag (flag : Char)
  | malformed
deriving DecidableEq, Repr

/-- How letters, line ends, the dot and blanks in the body are read. -/
structure Flags where
  ignoreCase : Bool := false
  multiline : Bool := false
  dotAll : Bool := false
  extended : Bool := false
deriving DecidableEq, Repr

/-- The text before and after the last slash. -/
def splitLastSlash? : List Char → Option (List Char × List Char)
  | [] => none
  | c :: cs => match splitLastSlash? cs with
    | some (body, flags) => some (c :: body, flags)
    | none => if c == '/' then some ([], cs) else none

/-- The flags `u`, `g` and `y` make no difference to a single match. -/
def readFlags (flags : Flags) : List Char → Except Fault Flags
  | [] => .ok flags
  | 'i' :: cs => readFlags { flags with ignoreCase := true } cs
  | 'm' :: cs => readFlags { flags with multiline := true } cs
  | 's' :: cs => readFlags { flags with dotAll := true } cs
  | 'x' :: cs => readFlags { flags with extended := true } cs
  | 'u' :: cs => readFlags flags cs
  | 'g' :: cs => readFlags flags cs
  | 'y' :: cs => readFlags flags cs
  | c :: _ => .error (.unknownFlag c)

def splitLiteral (literal : String) : Except Fault (List Char × Flags) :=
  match literal.toList with
  | '/' :: cs => match splitLastSlash? cs with
    | some (body, flags) => (readFlags {} flags).map (body, ·)
    | none => .error .noClosingSlash
  | _ => .error .noOpeningSlash

end Formula.Pattern
