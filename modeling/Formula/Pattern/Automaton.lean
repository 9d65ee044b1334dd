import Formula.Pattern

/-! Automata for patterns. All states that a text can lead to are followed at once, so that the time
for a search is bounded by the length of the text times the number of states. -/

namespace Formula.Pattern

inductive Node
  | accept
  | take (s : Unicode.CharSet) (next : Nat)
  | look (place : Look) (next : Nat)
  | fork (left right : Nat)
deriving Inhabited

abbrev Build := StateM (Array Node)

def push (n : Node) : Build Nat := fun nodes => (nodes.size, nodes.push n)

/-- Puts `count` copies before a node. -/
def copies (body : Nat → Build Nat) : Nat → Nat → Build Nat
  | 0, next => return next
  | count + 1, next => do body (← copies body count next)

/-- Puts up to `count` copies before a node; each may be left out with those behind it. -/
def options (body : Nat → Build Nat) : Nat → Nat → Build Nat
  | 0, next => return next
  | count + 1, next => do push (.fork (← body (← options body count next)) next)

/-- Puts any number of copies before a node. -/
def star (body : Nat → Build Nat) (next : Nat) : Build Nat := do
  let here ← push .accept
  let inner ← body here
  modify fun nodes => nodes.setIfInBounds here (.fork inner next)
  return here

mutual

/-- Puts the automaton of a pattern before a node, and tells where it begins. -/
def build : Pattern → Nat → Build Nat
  | empty, next => return next
  | set s, next => push (.take s next)
  | look place, next => push (.look place next)
  | group p, next => build p next
  | seq ps, next => buildSeq ps next
  | alt ps, next => buildAlt ps next
  | repeated p least none, next => do copies (build p) least (← star (build p) next)
  | repeated p least (some most), next => do
    copies (build p) least (← options (build p) (most - least) next)

def buildSeq : List Pattern → Nat → Build Nat
  | [], next => return next
  | p :: ps, next => do build p (← buildSeq ps next)

def buildAlt : List Pattern → Nat → Build Nat
  | [], next => return next
  | [p], next => build p next
  | p :: q :: ps, next => do
    let right ← buildAlt (q :: ps) next
    let left ← build p next
    push (.fork left right)

end

structure Automaton where
  nodes : Array Node
  start : Nat

/-- The node that accepts comes first. -/
def automaton (p : Pattern) : Automaton :=
  let (start, nodes) := build p 0 #[.accept]
  ⟨nodes, start⟩

/-- The states that can be reached at a place without a character: whether one of them accepts, and
those that take a character. -/
structure Front where
  visited : Array Bool
  accepts : Bool := false
  takes : List (Unicode.CharSet × Nat) := []

def spread (nodes : Array Node) (before after : Option Char) : Nat → List Nat → Front → Front
  | 0, _, front => front
  | _, [], front => front
  | fuel + 1, n :: rest, front =>
    if front.visited.getD n true then spread nodes before after fuel rest front
    else
      let front := { front with visited := front.visited.setIfInBounds n true }
      match nodes.getD n .accept with
      | .accept => { front with accepts := true }
      | .take s next =>
        spread nodes before after fuel rest { front with takes := (s, next) :: front.takes }
      | .look place next =>
        let rest := if place.holds before after then next :: rest else rest
        spread nodes before after fuel rest front
      | .fork left right => spread nodes before after fuel (left :: right :: rest) front

/-- A match may begin at every place, so the start is added to the states at each. -/
def Automaton.search (a : Automaton) (before : Option Char) (states : List Nat) : List Char → Bool
  | [] => (front a before none states).accepts
  | c :: cs =>
    let f := front a before (some c) states
    f.accepts || a.search (some c) ((f.takes.filter (·.1.contains c)).map Prod.snd) cs
where
  front (a : Automaton) (before after : Option Char) (states : List Nat) : Front :=
    spread a.nodes before after (3 * (a.nodes.size + states.length) + 3) (a.start :: states)
      { visited := Array.replicate a.nodes.size false }

/-- Whether a part of the text matches. -/
def isMatch (p : Pattern) (text : String) : Bool := p.automaton.search none [] text.toList

end Formula.Pattern
