import Formula.Number.Reading
import Formula.Pattern
import Formula.Unicode.Age
import Formula.Unicode.Boundary.Grapheme
import Formula.Unicode.Boundary.Sentence
import Formula.Unicode.Property.Name

/-! What a backslash in a pattern introduces. A reader takes the text that is left and returns
what is left behind it. -/

namespace Formula.Pattern

/-- How the body of a pattern is read at a place. -/
structure Mode where
  ignoreCase : Bool := false
  multiline : Bool := false
  dotAll : Bool := false
  extended : Bool := false
  unicode : Bool := true
  crlf : Bool := false
deriving DecidableEq, Repr

abbrev Reader (α : Type) := List Char → Option (α × List Char)

def skipBlanks (inComment : Bool) : List Char → List Char
  | [] => []
  | c :: cs =>
    if inComment then skipBlanks (c != '\n') cs
    else if Text.isBlank c then skipBlanks false cs
    else if c == '#' then skipBlanks true cs
    else c :: cs

/-- In an extended pattern blanks do not count, and a number sign hides the rest of the line. -/
def Mode.skip (m : Mode) (cs : List Char) : List Char :=
  if m.extended then skipBlanks false cs else cs

open Unicode

def asciiSet : CharSet := .range 0 127

def isAsciiSet (s : CharSet) : Bool := s.ranges.all fun (_, b) => b < 128

def wordSet (m : Mode) : CharSet :=
  if m.unicode then Property.word else Property.word.inter asciiSet

/-- With letters of both cases, if case is ignored. -/
def Mode.fold (m : Mode) (s : CharSet) : CharSet :=
  if m.ignoreCase then
    if m.unicode then Case.close s else (Case.close (s.inter asciiSet)).inter asciiSet |>.union s
  else s

/-- A set that a text of characters can be searched for: without the Unicode mode only those of
ASCII can. -/
def Mode.allowed (m : Mode) (s : CharSet) : Option CharSet :=
  if m.unicode || isAsciiSet s then some s else none

/-- Folds a set, then takes its complement if it is negated. -/
def Mode.negatable (m : Mode) (negated : Bool) (s : CharSet) : Option CharSet :=
  m.allowed (if negated then (m.fold s).complement else m.fold s)

/-- The classes `\d`, `\s` and `\w`, with complements in capital letters. -/
def Mode.shorthand? (m : Mode) (c : Char) : Option (Option CharSet) :=
  let pick (negated : Bool) (s : CharSet) : Option (Option CharSet) :=
    let s := if m.unicode then s else s.inter asciiSet
    some (m.allowed (if negated then s.complement else s))
  match c with
  | 'd' => pick false Category.decimalNumber
  | 'D' => pick true Category.decimalNumber
  | 's' => pick false Property.whiteSpace
  | 'S' => pick true Property.whiteSpace
  | 'w' => pick false Property.word
  | 'W' => pick true Property.word
  | _ => none

/-- A name without its separators and without an `is` at its very beginning, in small letters. The
name `isc` is another one than `c`. -/
def propertyName (name : List Char) : String :=
  let isDropped (c : Char) : Bool := c == ' ' || c == '_' || c == '-' || 127 < c.toNat
  let plain (cs : List Char) : List Char := (cs.filter (!isDropped ·)).map Char.toLower
  String.ofList <| match name with
    | i :: s :: rest =>
      if i.toLower == 'i' && s.toLower == 's' then
        if plain rest == ['c'] then ['i', 's', 'c'] else plain rest
      else plain name
    | _ => plain name

def categoryNamed? : String → Option CharSet
  | "any" => some (.range 0 CharSet.maxCodePoint)
  | "assigned" => some Category.unassigned.complement
  | "ascii" => some asciiSet
  | name => Category.byName.lookup name

/-- Three names of categories also stand for properties of another sort, and count as categories. -/
def propertyNamed? (name : String) : Option CharSet :=
  let property :=
    if name == "cf" || name == "sc" || name == "lc" then none else Property.byName.lookup name
  property <|> categoryNamed? name <|> Writing.find? name

def propertyOf? (key value : String) : Option CharSet :=
  match key with
  | "generalcategory" | "gc" => categoryNamed? value
  | "script" | "sc" => Writing.find? value
  | "scriptextensions" | "scx" => Writing.extension? value
  | "age" => Age.upTo? value
  | "graphemeclusterbreak" | "gcb" => Boundary.Grapheme.byName.lookup value
  | "wordbreak" | "wb" => Boundary.Word.byName.lookup value
  | "sentencebreak" | "sb" => Boundary.Sentence.byName.lookup value
  | _ => none

/-- The text before and after the first place where `mark` stands. -/
def splitAt? (mark : List Char) : List Char → Option (List Char × List Char)
  | [] => none
  | c :: cs =>
    if mark.isPrefixOf (c :: cs) then some ([], (c :: cs).drop mark.length)
    else (splitAt? mark cs).map fun (before, after) => (c :: before, after)

/-- What a property in braces stands for, and whether an unequal sign negates it. -/
def property? (query : List Char) : Option (Bool × CharSet) :=
  let valued (negated : Bool) (parts : List Char × List Char) : Option (Bool × CharSet) :=
    (propertyOf? (propertyName parts.1) (propertyName parts.2)).map (negated, ·)
  match splitAt? ['!', '='] query, splitAt? [':'] query, splitAt? ['='] query with
  | some parts, _, _ => valued true parts
  | _, some parts, _ => valued false parts
  | _, _, some parts => valued false parts
  | _, _, _ => (propertyNamed? (propertyName query)).map (false, ·)

/-- The text up to a closing brace. -/
def readBraced (m : Mode) (taken : List Char) : Nat → Reader (List Char)
  | 0, _ => none
  | fuel + 1, cs => match m.skip cs with
    | [] => none
    | '\x7d' :: cs => some (taken.reverse, cs)
    | c :: cs => readBraced m (c :: taken) fuel cs

def readProperty (m : Mode) (negated : Bool) : Reader CharSet := fun cs => do
  let (query, rest) ← match m.skip cs with
    | [] => none
    | '\x7b' :: cs => readBraced m [] (cs.length + 1) cs
    | c :: cs => if c == '\\' then none else some ([c], m.skip cs)
  let (unequal, s) ← property? query
  if m.unicode then
    let s ← m.negatable (negated != unequal) s
    return (s, rest)
  else none

def charOfCode? (n : Nat) : Option Char :=
  if h : n.isValidChar then some (Char.ofNatAux n h) else none

def readHexDigits (m : Mode) (value : Nat) : Nat → Reader Nat
  | 0, cs => some (value, cs)
  | _ + 1, [] => none
  | count + 1, c :: cs => do
    let d ← Number.radixDigit? 16 c
    readHexDigits m (16 * value + d) count (m.skip cs)

/-- A code point in braces, or in as many digits as the mark asks for. -/
def readCodePoint (m : Mode) (digits : Nat) : Reader Char := fun cs => do
  let (n, rest) ← match m.skip cs with
    | '\x7b' :: cs => do
      let (ds, rest) ← readBraced m [] (cs.length + 1) cs
      let values ← ds.mapM (Number.radixDigit? 16)
      if values.isEmpty then none else some (values.foldl (16 * · + ·) 0, m.skip rest)
    | cs => readHexDigits m 0 digits cs
  let c ← charOfCode? n
  return (c, rest)

inductive Escape
  | char (c : Char)
  | set (s : CharSet)
  | look (place : Look)

/-- Characters that mean something in a pattern. -/
def isMeta (c : Char) : Bool := "\\.+*?()|[]\x7b\x7d^$#&-~".toList.contains c

/-- Characters that a backslash makes literal: those that mean something, and all of ASCII that is
no letter, digit or angle bracket. -/
def isEscapable (c : Char) : Bool :=
  isMeta c || (c.toNat < 128 && !c.isAlphanum && c != '<' && c != '>')

def isBoundaryName (c : Char) : Bool := c.isAlpha || c == '-'

def readBoundaryName (m : Mode) (taken : List Char) : Nat → Reader (List Char)
  | 0, _ => none
  | _ + 1, [] => none
  | fuel + 1, c :: cs =>
    if isBoundaryName c then readBoundaryName m (c :: taken) fuel (m.skip cs)
    else if c == '\x7d' then some (taken.reverse, cs)
    else none

/-- A word boundary may tell its side in braces; otherwise a brace begins a repetition. -/
def readBoundary (m : Mode) : Reader Look := fun cs =>
  let word := wordSet m
  match cs with
  | '\x7b' :: inner => match m.skip inner with
    | [] => none
    | c :: rest =>
      if isBoundaryName c then do
        let (name, rest) ← readBoundaryName m [] (rest.length + 2) (c :: rest)
        match String.ofList name with
        | "start" => some (.wordStart word, rest)
        | "end" => some (.wordEnd word, rest)
        | "start-half" => some (.wordStartHalf word, rest)
        | "end-half" => some (.wordEndHalf word, rest)
        | _ => none
      else some (.wordBoundary word, cs)
  | _ => some (.wordBoundary word, cs)

/-- Reads what stands behind a backslash. -/
def readEscape (m : Mode) : Reader Escape
  | [] => none
  | 'x' :: cs => (readCodePoint m 2 cs).map fun (c, rest) => (.char c, rest)
  | 'u' :: cs => (readCodePoint m 4 cs).map fun (c, rest) => (.char c, rest)
  | 'U' :: cs => (readCodePoint m 8 cs).map fun (c, rest) => (.char c, rest)
  | 'p' :: cs => (readProperty m false cs).map fun (s, rest) => (.set s, rest)
  | 'P' :: cs => (readProperty m true cs).map fun (s, rest) => (.set s, rest)
  | 'b' :: cs => (readBoundary m cs).map fun (place, rest) => (.look place, rest)
  | 'B' :: cs => some (.look (.wordInside (wordSet m)), cs)
  | '<' :: cs => some (.look (.wordStart (wordSet m)), cs)
  | '>' :: cs => some (.look (.wordEnd (wordSet m)), cs)
  | 'A' :: cs => some (.look .textStart, cs)
  | 'z' :: cs => some (.look .textEnd, cs)
  | 'a' :: cs => some (.char '\x07', cs)
  | 'f' :: cs => some (.char '\x0c', cs)
  | 't' :: cs => some (.char '\t', cs)
  | 'n' :: cs => some (.char '\n', cs)
  | 'r' :: cs => some (.char '\r', cs)
  | 'v' :: cs => some (.char '\x0b', cs)
  | c :: cs => match m.shorthand? c with
    | some s => s.map fun s => (.set s, cs)
    | none => if isEscapable c then some (.char c, cs) else none

end Formula.Pattern
