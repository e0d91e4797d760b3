import ImportGroups.Source.Automaton
import ImportGroups.Source.Tree

/-!
The stacks of all versions of a reading.

A place is a state that was reached, and links lead from it down to the places before it, each with
the tree that was read in between. Versions that have come to the same place share it, so a place
may have several links. Places are known by their numbers.
-/

namespace ImportGroups.Source

/-- A way down from a place. There is no tree where the reader fell out of step. -/
structure Link where
  below : Nat
  tree? : Option Tree

structure Place where
  state : State
  mark : Mark
  links : List Link := []
  /-- The cost of all trees down to the bottom. -/
  cost : Nat := 0
  /-- How many visible trees there are down to the bottom. -/
  shown : Nat := 0
  rank : Int := 0
  deriving Inhabited

/-- How many visible trees a tree counts for on a stack. Skipped tokens count, so that a version
that skips something can be told from one that has just fallen out of step. -/
def Tree.progress (t : Tree) : Nat := t.shown + if t.label == .skipped then 1 else 0

namespace Link

def rank (l : Link) : Int := (l.tree?.map (·.rank)).getD 0

def progress (l : Link) : Nat := (l.tree?.map (·.progress)).getD 0

def interchangeable (a b : Link) : Bool :=
  match a.tree?, b.tree? with
  | none, none => true
  | some s, some t => s.interchangeable t
  | _, _ => false

end Link

abbrev Stacks := Array Place

namespace Stacks

def place (s : Stacks) (i : Nat) : Place := s[i]?.getD default

def above (s : Stacks) (below : Nat) (tree? : Option Tree) (state : State) : Place :=
  let b := s.place below
  let link : Link := ⟨below, tree?⟩
  { state, links := [link]
    mark := (tree?.map (·.stop)).getD b.mark
    cost := b.cost + (tree?.map (·.cost)).getD 0
    shown := b.shown + link.progress
    rank := b.rank + link.rank }

def joinable (s : Stacks) (i j : Nat) : Bool :=
  let a := s.place i
  let b := s.place j
  a.state == b.state && a.mark.offset == b.mark.offset && a.cost == b.cost

def linkLimit : Nat := 8

def coveringLink? (s : Stacks) (links : List Link) (link : Link) : Option Nat :=
  links.findIdx? fun l =>
    l.interchangeable link && (l.below == link.below || s.joinable l.below link.below)

/-- Adds a way down from a place. Of two trees between the same places the one with the higher rank
is kept, and places below that can be one become one. -/
def addLink : Nat → Stacks → Nat → Link → Stacks
  | 0, s, _, _ => s
  | fuel + 1, s, i, link =>
    let p := s.place i
    let rank := (s.place link.below).rank + link.rank
    if link.below == i then s
    else
      match s.coveringLink? p.links link with
      | some k =>
        match p.links[k]? with
        | none => s
        | some known =>
          if known.below == link.below then
            if known.rank < link.rank then
              s.setIfInBounds i { p with links := p.links.set k link, rank }
            else s
          else
            let joined := (s.place link.below).links.foldl
              (fun s l => addLink fuel s known.below l) s
            joined.setIfInBounds i { p with rank := max p.rank rank }
      | none =>
        if linkLimit ≤ p.links.length then s
        else
          let shown := (s.place link.below).shown + link.progress
          s.setIfInBounds i
            { p with
              links := p.links ++ [link]
              shown := max p.shown shown
              rank := max p.rank rank }

/-- Adds the ways down from `other` to the place `i`. -/
def join (s : Stacks) (i other : Nat) : Stacks :=
  let size := Array.size s
  (s.place other).links.foldl (fun s l => addLink size s i l) s

end Stacks

/-- A descent of a stack: where it stands, the trees on the way, the deepest first, and how many of
them are no extras. A place where the reader fell out of step counts as one, too. -/
structure Descent where
  place : Nat
  trees : List Tree := []
  depth : Nat := 0

namespace Descent

def down (w : Descent) (l : Link) : Descent :=
  match l.tree? with
  | some t => ⟨l.below, t :: w.trees, if t.extra then w.depth else w.depth + 1⟩
  | none => ⟨l.below, w.trees, w.depth + 1⟩

def limit : Nat := 64

structure Verdict where
  /-- The descent is a result. -/
  found : Bool
  /-- The descent ends. -/
  stop : Bool

/-- Descents under way, the results so far with the latest first, and what was noted. -/
structure Progress (σ : Type) where
  descents : List Descent
  found : List Descent
  notes : σ

variable {σ : Type}

/-- Takes every descent one step down. New descents come after all others. -/
def round (s : Stacks) (visit : σ → Descent → σ × Verdict) :
    List Descent → List Descent → List Descent → List Descent → σ → Progress σ
  | [], kept, added, found, notes => ⟨kept.reverse ++ added.reverse, found, notes⟩
  | w :: rest, kept, added, found, notes =>
    let (notes, verdict) := visit notes w
    let found := if verdict.found then w :: found else found
    match verdict.stop, (s.place w.place).links with
    | false, l :: ls =>
      let room := limit - (kept.length + 1 + rest.length + added.length)
      let more := (ls.take room).map w.down
      round s visit rest (w.down l :: kept) (more.reverse ++ added) found notes
    | _, _ => round s visit rest kept added found notes

/-- Takes descents down until all have ended. -/
def run (s : Stacks) (visit : σ → Descent → σ × Verdict) : Nat → Progress σ → Progress σ
  | 0, p => p
  | fuel + 1, p =>
    if p.descents.isEmpty then p
    else run s visit fuel (round s visit p.descents [] [] p.found p.notes)

def fromPlace (s : Stacks) (visit : σ → Descent → σ × Verdict) (notes : σ) (i : Nat) :
    List Descent × σ :=
  let p := run s visit (Array.size s + 1) ⟨[⟨i, [], 0⟩], [], notes⟩
  (p.found.reverse, p.notes)

end Descent

/-- Several ways to have read the trees above one place. -/
structure Slice where
  place : Nat
  ways : List (List Tree)

def Slice.ofDescents : List Descent → List Slice → List Slice
  | [], slices => slices.reverse
  | w :: ws, slices =>
    if slices.any (·.place == w.place) then
      Slice.ofDescents ws (slices.map fun s =>
        if s.place == w.place then { s with ways := s.ways ++ [w.trees] } else s)
    else Slice.ofDescents ws (⟨w.place, [w.trees]⟩ :: slices)

namespace Stacks

/-- What lies above the places `depth` trees below a place. -/
def slices (s : Stacks) (i depth : Nat) : List Slice :=
  let visit := fun (_ : Unit) (w : Descent) =>
    ((), (⟨w.depth == depth, w.depth == depth⟩ : Descent.Verdict))
  Slice.ofDescents (Descent.fromPlace s visit () i).1 []

def wholeWays (s : Stacks) (i : Nat) : List (List Tree) :=
  let visit := fun (_ : Unit) (w : Descent) =>
    ((), (⟨(s.place w.place).links.isEmpty, false⟩ : Descent.Verdict))
  (Descent.fromPlace s visit () i).1.map (·.trees)

/-- A place that a version can go back to. -/
structure Level where
  spot : Spot
  depth : Nat
  state : State

def depthLimit : Nat := 16

def hasLevel (depth : Nat) (state : State) : List Level → Bool
  | [] => false
  | l :: ls =>
    if l.depth < depth then false
    else if l.depth == depth && l.state == state then true
    else hasLevel depth state ls

/-- The levels below a place, from the top down. -/
def levels (s : Stacks) (i : Nat) : List Level :=
  let visit := fun (levels : List Level) (w : Descent) =>
    let p := s.place w.place
    if depthLimit < w.depth then (levels, (⟨false, true⟩ : Descent.Verdict))
    else if hasLevel w.depth p.state levels then (levels, ⟨false, false⟩)
    else (⟨p.mark.toSpot, w.depth, p.state⟩ :: levels, ⟨false, false⟩)
  (Descent.fromPlace s visit [] i).2.reverse

end Stacks

end ImportGroups.Source
