import Formula.Pattern.Class
import Formula.Pattern.Literal

/-! Reading the body of a pattern literal. -/

namespace Formula.Pattern

open Unicode

/-- The parts of a sequence and the alternatives before it, last first. -/
structure Draft where
  parts : List Pattern := []
  alternatives : List Pattern := []

def Draft.add (d : Draft) (p : Pattern) : Draft := { d with parts := p :: d.parts }

def sequence : List Pattern → Pattern
  | [p] => p
  | ps => seq ps

def Draft.finish (d : Draft) : Pattern :=
  let last := sequence d.parts.reverse
  if d.alternatives.isEmpty then last else alt (last :: d.alternatives).reverse

def Draft.alternative (d : Draft) : Draft :=
  { parts := [], alternatives := sequence d.parts.reverse :: d.alternatives }

/-- What was begun around the innermost open group, and how it was read. -/
structure Outer where
  draft : Draft
  mode : Mode

/-- A reading of a body that has come to some place. -/
structure Reading where
  mode : Mode
  draft : Draft := {}
  outer : List Outer := []
  names : List (List Char) := []

def Reading.add (r : Reading) (p : Pattern) : Reading := { r with draft := r.draft.add p }

def Reading.enter (r : Reading) (inner : Mode) : Reading :=
  { r with mode := inner, draft := {}, outer := ⟨r.draft, r.mode⟩ :: r.outer }

/-- Repeats the last part. There has to be one, and a change of mode is none. -/
def Reading.repeatLast (r : Reading) (least : Nat) (most : Option Nat) : Option Reading :=
  match r.draft.parts with
  | [] => none
  | .empty :: _ => none
  | p :: ps => some { r with draft := { r.draft with parts := p.times least most :: ps } }

/-- A question mark behind a repetition asks for a short match, which is a match as well. -/
def dropLazy : List Char → List Char
  | '?' :: cs => cs
  | cs => cs

def dropBlanks (cs : List Char) : List Char := cs.dropWhile Text.isBlank

def readCountDigits (m : Mode) (value? : Option Nat) : Nat → List Char → Option Nat × List Char
  | 0, cs => (value?, cs)
  | fuel + 1, cs => match cs with
    | c :: rest =>
      if c.isDigit then
        readCountDigits m (some (10 * value?.getD 0 + Number.digitValue c)) fuel (m.skip rest)
      else (value?, cs)
    | [] => (value?, [])

/-- A number of repetitions, if there is one, between blanks. -/
def readCount (m : Mode) (cs : List Char) : Option (Option Nat × List Char) :=
  let cs := dropBlanks cs
  let (value?, rest) := readCountDigits m none cs.length cs
  if value?.all (· < 0x100000000) then some (value?, m.skip (dropBlanks rest)) else none

/-- The numbers behind an opening brace, up to the closing one. -/
def readCounts (m : Mode) : Reader (Nat × Option Nat) := fun cs => do
  let (least?, rest) ← readCount m (m.skip cs)
  let least ← least?
  match rest with
  | '\x7d' :: rest => some ((least, some least), rest)
  | ',' :: rest => match m.skip rest with
    | '\x7d' :: rest => some ((least, none), rest)
    | rest => do
      let (most?, rest) ← readCount m rest
      let most ← most?
      match rest with
      | '\x7d' :: rest => if least ≤ most then some ((least, some most), rest) else none
      | _ => none
  | _ => none

def isNameStart (c : Char) : Bool := c == '_' || Later.alphabetic.contains c

def isNamePart (c : Char) : Bool :=
  isNameStart c || c == '.' || c == '[' || c == ']' || Later.number.contains c

/-- The name of a group, up to the angle bracket that closes it. -/
def readGroupName : Reader (List Char) := fun cs =>
  let name := cs.takeWhile (· != '>')
  match name, cs.dropWhile (· != '>') with
  | c :: rest, '>' :: behind =>
    if isNameStart c && rest.all isNamePart then some (name, behind) else none
  | _, _ => none

def Mode.withFlag (m : Mode) (value : Bool) : Char → Option Mode
  | 'i' => some { m with ignoreCase := value }
  | 'm' => some { m with multiline := value }
  | 's' => some { m with dotAll := value }
  | 'x' => some { m with extended := value }
  | 'u' => some { m with unicode := value }
  | 'R' => some { m with crlf := value }
  | 'U' => some m
  | _ => none

/-- Flags up to the character that ends them: each at most once, and something behind a minus. -/
def readModeFlags (m : Mode) (seen : List Char) : Reader (Mode × Bool × Char)
  | [] => none
  | c :: cs =>
    if c == ':' || c == ')' then
      if seen.head? == some '-' then none else some ((m, seen.isEmpty, c), cs)
    else if seen.contains c then none
    else if c == '-' then readModeFlags m (c :: seen) cs
    else do
      let m ← m.withFlag (!seen.contains '-') c
      readModeFlags m (c :: seen) cs

/-- Opens a group, or changes the mode up to the end of the group around. -/
def readGroup (r : Reading) : Reader Reading := fun cs =>
  let named (cs : List Char) : Option (Reading × List Char) := do
    let (name, rest) ← readGroupName cs
    if r.names.contains name then none
    else some ({ r with names := name :: r.names }.enter r.mode, rest)
  match r.mode.skip cs with
  | '?' :: '=' :: _ => none
  | '?' :: '!' :: _ => none
  | '?' :: '<' :: '=' :: _ => none
  | '?' :: '<' :: '!' :: _ => none
  | '?' :: 'P' :: '<' :: cs => named cs
  | '?' :: '<' :: cs => named cs
  | '?' :: cs => do
    let ((mode, none?, ending), rest) ← readModeFlags r.mode [] cs
    if ending == ':' then some (r.enter mode, rest)
    else if none? then none
    else some ({ r.add .empty with mode }, rest)
  | cs => some (r.enter r.mode, cs)

def Reading.leave (r : Reading) : Option Reading :=
  match r.outer with
  | [] => none
  | o :: outer =>
    some { r with mode := o.mode, draft := o.draft.add (.group r.draft.finish), outer }

def Mode.dot (m : Mode) : Option CharSet :=
  let excluded : CharSet :=
    if m.dotAll then .empty else if m.crlf then .ofRanges [(10, 10), (13, 13)] else .range 10 10
  m.allowed excluded.complement

/-- A literal character; letters of ASCII alone are folded without the Unicode mode. -/
def Mode.char (m : Mode) (c : Char) : Pattern := set (m.fold (.singleton c))

/-- Reads one part of a body, whose first character is given. -/
def readPart (r : Reading) (c : Char) : Reader Reading := fun cs =>
  match c with
  | '(' => readGroup r cs
  | ')' => r.leave.map (·, cs)
  | '|' => some ({ r with draft := r.draft.alternative }, cs)
  | '[' => (readClass r.mode (2 * cs.length + 2) cs).map fun (s, rest) => (r.add (set s), rest)
  | '?' => (r.repeatLast 0 (some 1)).map (·, dropLazy cs)
  | '*' => (r.repeatLast 0 none).map (·, dropLazy cs)
  | '+' => (r.repeatLast 1 none).map (·, dropLazy cs)
  | '\x7b' => do
    let ((least, most), rest) ← readCounts r.mode cs
    let r' ← r.repeatLast least most
    return (r', dropLazy (r.mode.skip rest))
  | '.' => r.mode.dot.map fun s => (r.add (set s), cs)
  | '^' => some (r.add (look (if r.mode.multiline then .lineStart r.mode.crlf else .textStart)), cs)
  | '$' => some (r.add (look (if r.mode.multiline then .lineEnd r.mode.crlf else .textEnd)), cs)
  | '\\' => (readEscape r.mode cs).map fun
    | (.char c, rest) => (r.add (r.mode.char c), rest)
    | (.set s, rest) => (r.add (set s), rest)
    | (.look place, rest) => (r.add (look place), rest)
  | c => some (r.add (r.mode.char c), cs)

/-- Each part takes a character at least, so that the length of the body is fuel enough. -/
def readParts : Nat → Reading → List Char → Option Pattern
  | 0, _, _ => none
  | fuel + 1, r, cs => match r.mode.skip cs with
    | [] => if r.outer.isEmpty then some r.draft.finish else none
    | c :: cs => match readPart r c cs with
      | some (r, rest) => readParts fuel r rest
      | none => none

/-- Limits beyond which a pattern is refused. -/
def maxDepthAllowed : Nat := 250

def maxCost : Nat := 300000

def Flags.mode (f : Flags) : Mode :=
  { ignoreCase := f.ignoreCase, multiline := f.multiline, dotAll := f.dotAll,
    extended := f.extended }

def ofBody? (flags : Flags) (body : List Char) : Option Pattern :=
  (readParts (body.length + 1) { mode := flags.mode } body).filter fun p =>
    p.depth ≤ maxDepthAllowed && p.cost ≤ maxCost

def ofLiteral (literal : String) : Except Fault Pattern := do
  let (body, flags) ← splitLiteral literal
  match ofBody? flags body with
  | some p => return p
  | none => throw .malformed

end Formula.Pattern
