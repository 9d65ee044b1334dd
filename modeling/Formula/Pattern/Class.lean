import Formula.Pattern.Escape

/-! Bracketed classes of characters: characters, ranges, named classes and nested classes, with set
operations between them. -/

namespace Formula.Pattern

open Unicode

inductive ClassOp
  | inter
  | diff
  | symmetricDiff

/-- The set on the left of an operator that waits for its right side. -/
abbrev Pending := Option (ClassOp × CharSet)

def combine : Pending → CharSet → CharSet
  | none, s => s
  | some (.inter, left), s => left.inter s
  | some (.diff, left), s => left.diff s
  | some (.symmetricDiff, left), s => (left.union s).diff (left.inter s)

def namedClass? : String → Option CharSet
  | "alnum" => some (.ofRanges [(48, 57), (65, 90), (97, 122)])
  | "alpha" => some (.ofRanges [(65, 90), (97, 122)])
  | "ascii" => some (.range 0 127)
  | "blank" => some (.ofRanges [(9, 9), (32, 32)])
  | "cntrl" => some (.ofRanges [(0, 31), (127, 127)])
  | "digit" => some (.range 48 57)
  | "graph" => some (.range 33 126)
  | "lower" => some (.range 97 122)
  | "print" => some (.range 32 126)
  | "punct" => some (.ofRanges [(33, 47), (58, 64), (91, 96), (123, 126)])
  | "space" => some (.ofRanges [(9, 13), (32, 32)])
  | "upper" => some (.range 65 90)
  | "word" => some (.ofRanges [(48, 57), (65, 90), (95, 95), (97, 122)])
  | "xdigit" => some (.ofRanges [(48, 57), (65, 70), (97, 102)])
  | _ => none

/-- A class such as `[:alpha:]`, behind its first bracket; what is no such class is a nested one. -/
def readNamedClass (m : Mode) : Reader (Option CharSet)
  | ':' :: cs =>
    let (negated, cs) := match cs with
      | '^' :: cs => (true, cs)
      | cs => (false, cs)
    match namedClass? (String.ofList (cs.takeWhile (· != ':'))), cs.dropWhile (· != ':') with
    | some s, ':' :: ']' :: rest => some (m.negatable negated s, rest)
    | _, _ => none
  | _ => none

def readItem (m : Mode) : Reader Escape
  | [] => none
  | '\\' :: cs => readEscape m cs
  | c :: cs => some (.char c, cs)

/-- One item, or two characters with a hyphen between them. A hyphen before the closing bracket or
another hyphen stands for itself or for an operator. -/
def readRange (m : Mode) : Reader CharSet := fun cs => do
  let (first, rest) ← readItem m cs
  let single : Option (CharSet × List Char) := match first with
    | .char c => some (m.fold (.singleton c), m.skip rest)
    | .set s => some (s, m.skip rest)
    | .look _ => none
  match m.skip rest with
  | [] => none
  | '-' :: behind => match m.skip behind with
    | ']' :: _ => single
    | '-' :: _ => single
    | behind => do
      let (last, rest) ← readItem m behind
      match first, last with
      | .char a, .char b =>
        if a ≤ b then some (m.fold (.range a.toNat b.toNat), rest) else none
      | _, _ => none
  | _ => single

def readHyphens (m : Mode) (found : Bool) : Nat → List Char → Bool × List Char
  | 0, cs => (found, cs)
  | fuel + 1, cs => match cs with
    | '-' :: cs => readHyphens m true fuel (m.skip cs)
    | cs => (found, cs)

mutual

/-- A class behind its opening bracket. Hyphens at its beginning stand for themselves, and so does a
bracket that would close it at once. -/
def readClass (m : Mode) : Nat → Reader CharSet
  | 0, _ => none
  | fuel + 1, cs =>
    let (negated, cs) := match m.skip cs with
      | '^' :: cs => (true, m.skip cs)
      | cs => (false, cs)
    let (hyphen, cs) := readHyphens m false cs.length cs
    let items := if hyphen then CharSet.singleton '-' else .empty
    let (items, cs) := match hyphen, cs with
      | false, ']' :: cs => (CharSet.singleton ']', m.skip cs)
      | _, cs => (items, cs)
    readItems m negated fuel none items cs

/-- The rest of a class: `items` are those behind the last operator. -/
def readItems (m : Mode) (negated : Bool) : Nat → Pending → CharSet → Reader CharSet
  | 0, _, _, _ => none
  | fuel + 1, pending, items, cs => match m.skip cs with
    | [] => none
    | ']' :: rest => (m.negatable negated (combine pending items)).map (·, rest)
    | '[' :: inner => match readNamedClass m inner with
      | some (some s, rest) => readItems m negated fuel pending (items.union s) rest
      | some (none, _) => none
      | none => match readClass m fuel inner with
        | some (s, rest) => readItems m negated fuel pending (items.union s) rest
        | none => none
    | '&' :: '&' :: rest =>
      readItems m negated fuel (some (.inter, combine pending items)) .empty rest
    | '-' :: '-' :: rest =>
      readItems m negated fuel (some (.diff, combine pending items)) .empty rest
    | '~' :: '~' :: rest =>
      readItems m negated fuel (some (.symmetricDiff, combine pending items)) .empty rest
    | cs => match readRange m cs with
      | some (s, rest) => readItems m negated fuel pending (items.union s) rest
      | none => none

end

end Formula.Pattern
