import ImportGroups.Source.Mark
import ImportGroups.Source.Phrase
import ImportGroups.Source.Symbol

/-!
Trees of tokens and phrases.

A tree knows where its text lies and what it costs. Text that had to be left out and tokens that had
to be put in cost something, so of two trees for one source the cheaper one fits it better.
-/

namespace ImportGroups.Source

inductive Label where
  | token (s : Symbol)
  | phrase (p : Phrase)
  /-- Tokens that are left out, while more of them may follow. -/
  | skipped
  /-- Text that does not fit, or characters that start no token. -/
  | error
  deriving DecidableEq, Repr, Inhabited

namespace Label

def index : Label → Nat
  | token s => s.index
  | phrase p => 1000 + p.index
  | skipped => 2000
  | error => 2001

/-- Trees with this label show in the outline of a source. -/
def isVisible : Label → Bool
  | token s => s.isVisible
  | phrase p => p.isVisible
  | skipped => false
  | error => true

end Label

structure Tree where
  label : Label
  children : List Tree := []
  /-- The offset where the blanks before the text start. -/
  lead : Nat
  start : Mark
  stop : Mark
  /-- It may stand anywhere: a comment, or text that is left out. -/
  extra : Bool := false
  /-- It is a token that was put in. -/
  missing : Bool := false
  cost : Nat := 0
  rank : Int := 0
  /-- The number of visible trees below the root. -/
  inner : Nat := 0
  /-- The number of visible trees next below the root. -/
  parts : Nat := 0
  /-- The number of all trees in it, the root included. -/
  size : Nat := 1
  deriving Inhabited

namespace Cost

/-- The price of a place where the reader was out of step. -/
def recovery : Nat := 500

def skippedTree : Nat := 100

def skippedLine : Nat := 30

def missingToken : Nat := 610

/-- The price of leaving out the text between two spots. -/
def between (start stop : Spot) : Nat :=
  (stop.offset - start.offset) + skippedLine * (stop.line - start.line)

end Cost

namespace Tree

def isVisible (t : Tree) : Bool := t.label.isVisible

def isUnknown (t : Tree) : Bool := t.label == .error && t.children.isEmpty

def isError (t : Tree) : Bool := t.label == .error

def leaf (s : Symbol) (lead : Nat) (start stop : Mark) : Tree :=
  { label := .token s, lead, start, stop }

def unknown (lead : Nat) (start stop : Mark) : Tree :=
  { label := .error, lead, start, stop }

def missingToken (s : Symbol) (here : Mark) : Tree :=
  { label := .token s, lead := here.offset, start := here, stop := here, missing := true
    cost := Cost.missingToken }

/-- What a tree costs below a root that was left out, apart from its own cost. -/
def skipCost (t : Tree) : Nat :=
  if t.extra || t.isUnknown then 0
  else if t.isVisible then Cost.skippedTree
  else Cost.skippedTree * t.parts

/-- How many visible trees a tree counts for. -/
def shown (t : Tree) : Nat := t.inner + if t.isVisible then 1 else 0

def shownParts (t : Tree) : Nat := if t.isVisible then 1 else t.parts

/-- Sums over trees that stand side by side. -/
structure Sums where
  cost : Nat := 0
  skipCost : Nat := 0
  rank : Int := 0
  inner : Nat := 0
  parts : Nat := 0
  size : Nat := 0

def Sums.add (s : Sums) (t : Tree) : Sums :=
  { cost := s.cost + if t.label == .skipped then 0 else t.cost
    skipCost := s.skipCost + t.skipCost
    rank := s.rank + t.rank
    inner := s.inner + t.shown
    parts := s.parts + t.shownParts
    size := s.size + t.size }

def node (label : Label) (children : List Tree) (here : Mark) : Tree :=
  let sums := children.foldl Sums.add {}
  let first? := children.head?
  let start := (first?.map (·.start)).getD here
  let stop := (children.getLast?.map (·.stop)).getD here
  let own :=
    if label == .error || label == .skipped then
      Cost.recovery + Cost.between start.toSpot stop.toSpot + sums.skipCost
    else 0
  { label, children, start, stop
    lead := (first?.map (·.lead)).getD here.offset
    cost := sums.cost + own
    rank := sums.rank
    inner := sums.inner
    parts := sums.parts
    size := sums.size + 1 }

/-- Two trees that may stand for each other on the way to one place. -/
def interchangeable (a b : Tree) : Bool :=
  a.label == b.label &&
    (0 < a.cost && 0 < b.cost ||
      a.start.offset - a.lead == b.start.offset - b.lead &&
      a.stop.offset - a.start.offset == b.stop.offset - b.start.offset &&
      a.children.length == b.children.length && a.extra == b.extra)

/-- Compares trees from left to right and from the root down. -/
def compareAll : Nat → List (Tree × Tree) → Ordering
  | 0, _ => .eq
  | _, [] => .eq
  | fuel + 1, (a, b) :: rest =>
    if a.label != b.label then compare a.label.index b.label.index
    else if a.children.length != b.children.length then
      compare a.children.length b.children.length
    else compareAll fuel (a.children.zip b.children ++ rest)

/-- The second of two trees for one text is to be taken. -/
def prefersSecond (a b : Tree) : Bool :=
  if a.cost != b.cost then b.cost < a.cost
  else if a.rank != b.rank then a.rank < b.rank
  else 0 < a.cost || compareAll (a.size + b.size) [(a, b)] == .gt

end Tree

/-- Takes trees that may stand anywhere off the end. -/
def splitExtras (trees : List Tree) : List Tree × List Tree :=
  let extras := (trees.reverse.takeWhile (·.extra)).reverse
  (trees.take (trees.length - extras.length), extras)

end ImportGroups.Source
