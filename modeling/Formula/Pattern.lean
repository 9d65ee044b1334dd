import Formula.Unicode.Property

/-! Patterns of texts: what a text must contain to match. -/

namespace Formula

/-- Places in a text. Line ends are line feeds, or with `crlf` also carriage returns, a pair of them
being one. Words are made of the characters of a set. -/
inductive Look
  | textStart
  | textEnd
  | lineStart (crlf : Bool)
  | lineEnd (crlf : Bool)
  | wordBoundary (word : Unicode.CharSet)
  | wordInside (word : Unicode.CharSet)
  | wordStart (word : Unicode.CharSet)
  | wordEnd (word : Unicode.CharSet)
  | wordStartHalf (word : Unicode.CharSet)
  | wordEndHalf (word : Unicode.CharSet)

namespace Look

def isAny (s : Unicode.CharSet) (c? : Option Char) : Bool := c?.any s.contains

/-- Whether a place is as asked for, between the characters before and after it. -/
def holds (before after : Option Char) : Look → Bool
  | textStart => before.isNone
  | textEnd => after.isNone
  | lineStart false => before.isNone || before == some '\n'
  | lineStart true =>
    before.isNone || before == some '\n' || (before == some '\r' && after != some '\n')
  | lineEnd false => after.isNone || after == some '\n'
  | lineEnd true =>
    after.isNone || after == some '\r' || (after == some '\n' && before != some '\r')
  | wordBoundary word => isAny word before != isAny word after
  | wordInside word => isAny word before == isAny word after
  | wordStart word => !isAny word before && isAny word after
  | wordEnd word => isAny word before && !isAny word after
  | wordStartHalf word => !isAny word before
  | wordEndHalf word => !isAny word after

end Look

inductive Pattern
  | empty
  | set (s : Unicode.CharSet)
  | look (place : Look)
  | group (p : Pattern)
  | seq (ps : List Pattern)
  | alt (ps : List Pattern)
  | repeated (p : Pattern) (least : Nat) (most : Option Nat)
deriving Inhabited

namespace Pattern

mutual

/-- Whether anything that matches may have characters. -/
def canConsume : Pattern → Bool
  | empty | look _ => false
  | set _ => true
  | group p => p.canConsume
  | seq ps | alt ps => anyCanConsume ps
  | repeated p _ most => most != some 0 && p.canConsume

def anyCanConsume : List Pattern → Bool
  | [] => false
  | p :: ps => p.canConsume || anyCanConsume ps

end

mutual

/-- How deeply groups, repetitions, sequences and choices lie in one another. -/
def depth : Pattern → Nat
  | empty | set _ | look _ => 0
  | group p | repeated p _ _ => p.depth + 1
  | seq ps | alt ps => maxDepth ps + 1

def maxDepth : List Pattern → Nat
  | [] => 0
  | p :: ps => max p.depth (maxDepth ps)

end

mutual

/-- How large an automaton for a pattern is; a set counts more the more ranges it has. -/
def cost : Pattern → Nat
  | empty | look _ => 1
  | set s => 2 * s.ranges.size + 1
  | group p => p.cost + 2
  | seq ps => costs ps + 1
  | alt ps => costs ps + 2
  | repeated p least most => (p.cost + 1) * max 1 (max least (most.getD (least + 1)))

def costs : List Pattern → Nat
  | [] => 0
  | p :: ps => p.cost + costs ps

end

/-- A pattern without characters is not repeated more than once. -/
def times (p : Pattern) (least : Nat) (most : Option Nat) : Pattern :=
  if p.canConsume then repeated p least most
  else repeated p (min least 1) (some (min (most.getD 1) 1))

end Pattern
end Formula
