/-! Sets of characters as sorted ranges of code points. -/

namespace Formula.Unicode

/-- Ranges in ascending order, none of them touching the next; both ends belong to a range. -/
structure CharSet where
  ranges : Array (Nat × Nat)
deriving Inhabited, Repr

namespace CharSet

def maxCodePoint : Nat := 0x10FFFF

def empty : CharSet := ⟨#[]⟩

/-- Joins ranges, sorted by where they begin, that overlap or touch. -/
def mergeFrom (a b : Nat) : List (Nat × Nat) → List (Nat × Nat)
  | [] => [(a, b)]
  | (c, d) :: rest => if c ≤ b + 1 then mergeFrom a (max b d) rest else (a, b) :: mergeFrom c d rest

def ofRanges (ranges : List (Nat × Nat)) : CharSet :=
  match ranges.mergeSort fun x y => x.1 ≤ y.1 with
  | [] => empty
  | (a, b) :: rest => ⟨(mergeFrom a b rest).toArray⟩

def range (a b : Nat) : CharSet := ofRanges [(a, b)]

def singleton (c : Char) : CharSet := range c.toNat c.toNat

def union (s t : CharSet) : CharSet := ofRanges (s.ranges.toList ++ t.ranges.toList)

def unions (sets : List CharSet) : CharSet := ofRanges (sets.flatMap (·.ranges.toList))

/-- The gaps between ranges, from `start` on. -/
def gapsFrom (start : Nat) : List (Nat × Nat) → List (Nat × Nat)
  | [] => if start ≤ maxCodePoint then [(start, maxCodePoint)] else []
  | (a, b) :: rest =>
    if start < a then (start, a - 1) :: gapsFrom (b + 1) rest else gapsFrom (b + 1) rest

def complement (s : CharSet) : CharSet := ⟨(gapsFrom 0 s.ranges.toList).toArray⟩

def inter (s t : CharSet) : CharSet := (s.complement.union t.complement).complement

def diff (s t : CharSet) : CharSet := s.inter t.complement

/-- Halves the part of the table where a range with `n` may lie, at most `fuel` times. -/
def search (ranges : Array (Nat × Nat)) (n : Nat) : (fuel low high : Nat) → Bool
  | 0, _, _ => false
  | fuel + 1, low, high =>
    if low < high then
      let middle := (low + high) / 2
      match ranges[middle]? with
      | none => false
      | some (a, b) =>
        if n < a then search ranges n fuel low middle
        else if b < n then search ranges n fuel (middle + 1) high
        else true
    else false

def containsCode (s : CharSet) (n : Nat) : Bool :=
  search s.ranges n (s.ranges.size.log2 + 2) 0 s.ranges.size

def contains (s : CharSet) (c : Char) : Bool := s.containsCode c.toNat

def hexValue (c : Char) : Nat :=
  if c.isDigit then c.toNat - '0'.toNat else c.toNat - 'A'.toNat + 10

/-- Hexadecimal numbers with spaces between them. -/
def readHex (cs : List Char) (n : Nat) : List Nat :=
  match cs with
  | [] => [n]
  | ' ' :: cs => n :: readHex cs 0
  | c :: cs => readHex cs (16 * n + hexValue c)

def readGaps (start : Nat) : List Nat → List (Nat × Nat)
  | gap :: more :: rest =>
    (start + gap, start + gap + more) :: readGaps (start + gap + more + 1) rest
  | _ => []

/-- Two numbers for each range: how far behind the end of the last one it begins, and how many more
characters than one it has. -/
def ofGaps (table : String) : CharSet := ⟨(readGaps 0 (readHex table.toList 0)).toArray⟩

end CharSet
end Formula.Unicode
