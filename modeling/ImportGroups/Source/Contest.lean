import ImportGroups.Source.Stack
import ImportGroups.Source.Token

/-!
Reading a source in several versions at once.

Where the automaton leaves it open how to go on, or a token does not fit, a version of the reading
splits, and the versions compete: those whose trees cost more are given up, in the end the cheapest
tree is taken.

A version that meets a token that does not fit is paused. If no other version gets on, it is out of
step, and it tries three things: to put in a token that is missing, to go back to a state below in
which the token fits, leaving out what lies above, and to skip the token.
-/

namespace ImportGroups.Source

open Automaton (lost)
open Stacks (Level)

inductive Status where
  | active
  /-- It waits before a token that does not fit. -/
  | paused (token : Tree)
  | halted

structure Version where
  /-- The place that it has reached. -/
  top : Nat
  /-- How many visible trees there were when it last fell out of step. -/
  settled : Nat := 0
  status : Status := .active
  /-- What lay below when it fell out of step. -/
  levels? : Option (List Level) := none
  deriving Inhabited

/-- A token that was read, the offset before it, the state in which it was read, and whether its
text is a keyword. -/
structure Reuse where
  offset : Nat
  token : Tree
  state : State
  isKeyword : Bool

structure Contest where
  places : Stacks
  versions : Array Version
  /-- The best tree of the whole source so far. -/
  best? : Option Tree := none
  /-- How many trees of the whole source were found. -/
  finished : Nat := 0
  latest? : Option Reuse := none

def versionLimit : Nat := 6

/-- There are at most so many more versions during a round. -/
def versionSurplus : Nat := 4

/-- A version is given up if it costs so much more than another, times its progress. -/
def costMargin : Nat := 1800

namespace Status

def isActive : Status → Bool
  | active => true
  | _ => false

def isPaused : Status → Bool
  | paused _ => true
  | _ => false

def isHalted : Status → Bool
  | halted => true
  | _ => false

end Status

/-- The token after a mark, as it is read in a state, and whether its text is a keyword. -/
def readToken (s : State) (m : Mark) : Tree × Bool :=
  let lexed? := m.lex? (modeSymbols (Automaton.mode s))
  match lexed?.or (m.lex? looseSymbols) with
  | none => (.unknown m.offset m.unknown.1 m.unknown.2, false)
  | some l =>
    if l.symbol == .identifier then
      match Symbol.ofWord? (l.start.rest.take (l.stop.offset - l.start.offset)) with
      | none => (.leaf .identifier m.offset l.start l.stop, false)
      | some word =>
        let taken := Automaton.admits s word ||
          s != lost && word.isReserved && Automaton.admits s .identifier
        (.leaf (if taken then word else .identifier) m.offset l.start l.stop, true)
    else (.leaf l.symbol m.offset l.start l.stop, false)

/-- The symbol of a token; characters that start no token have none. -/
def Tree.symbol? (t : Tree) : Option Symbol :=
  match t.label with
  | .token s => some s
  | _ => none

def Tree.fits (t : Tree) (s : State) : Bool := t.symbol?.any (Automaton.admits s)

def Reuse.holdsIn (r : Reuse) (s : State) : Bool :=
  match r.token.symbol? with
  | none => false
  | some t =>
    Automaton.admits s t &&
      (Automaton.mode r.state == Automaton.mode s &&
          (t != .identifier || !r.isKeyword && r.state == s) ||
        (t == .endOfFile || r.token.start.offset != r.token.stop.offset) &&
          Automaton.isUnrivalled s t)

namespace Contest

def version (c : Contest) (v : Nat) : Version := c.versions[v]?.getD default

def top (c : Contest) (v : Nat) : Place := c.places.place (c.version v).top

def offset (c : Contest) (v : Nat) : Nat := (c.top v).mark.offset

def setVersion (c : Contest) (v : Nat) (version : Version) : Contest :=
  { c with versions := c.versions.setIfInBounds v version }

def setStatus (c : Contest) (v : Nat) (status : Status) : Contest :=
  c.setVersion v { c.version v with status }

def addVersion (c : Contest) (version : Version) : Contest :=
  { c with versions := c.versions.push version }

def removeVersion (c : Contest) (v : Nat) : Contest :=
  { c with versions := c.versions.eraseIdxIfInBounds v }

def moveVersion (c : Contest) (source target : Nat) : Contest :=
  let moved := c.version source
  let levels? := moved.levels?.or (c.version target).levels?
  (c.setVersion target { moved with levels? }).removeVersion source

/-- The version reads a tree and comes to a state. Without a tree it falls out of step. -/
def push (c : Contest) (v : Nat) (tree? : Option Tree) (state : State) : Contest :=
  let version := c.version v
  let place := c.places.above version.top tree? state
  let settled := if tree?.isNone then place.shown else version.settled
  let versions := c.versions.setIfInBounds v { version with top := c.places.size, settled }
  { c with versions, places := c.places.push place }

/-- Reads several trees without a change of state. -/
def pushAll (c : Contest) (v : Nat) (trees : List Tree) (state : State) : Contest :=
  trees.foldl (fun c t => c.push v (some t) state) c

def nextToken (c : Contest) (v : Nat) : Tree × Contest :=
  let p := c.top v
  let fresh :=
    let (token, isKeyword) := readToken p.state p.mark
    (token, { c with latest? := some ⟨p.mark.offset, token, p.state, isKeyword⟩ })
  match c.latest? with
  | some r => if r.offset == p.mark.offset && r.holdsIn p.state then (r.token, c) else fresh
  | none => fresh

/-- What a version costs. Being out of step has its price before a token is skipped. -/
def cost (c : Contest) (v : Nat) : Nat :=
  let p := c.top v
  let waits := (c.version v).status.isPaused ||
    p.state == lost && (p.links.head?.bind (·.tree?)).isNone
  p.cost + if waits then Cost.recovery else 0

/-- How many visible trees were read since the version fell out of step. -/
def progress (c : Contest) (v : Nat) : Nat := (c.top v).shown - (c.version v).settled

/-- The mark of the last fault is never ahead of what was read. -/
def settle (c : Contest) (v : Nat) : Contest :=
  let version := c.version v
  c.setVersion v { version with settled := min version.settled (c.top v).shown }

structure Standing where
  cost : Nat
  progress : Nat
  rank : Int
  /-- The version is out of step or about to be. -/
  atFault : Bool

def standing (c : Contest) (v : Nat) : Standing :=
  let paused := (c.version v).status.isPaused
  { cost := c.cost v + if paused then Cost.skippedTree else 0
    progress := c.progress v
    rank := (c.top v).rank
    atFault := paused || (c.top v).state == lost }

inductive Comparison where
  | takeLeft
  | preferLeft
  | undecided
  | preferRight
  | takeRight
  deriving DecidableEq

def Standing.compare (a b : Standing) : Comparison :=
  if !a.atFault && b.atFault then if a.cost < b.cost then .takeLeft else .preferLeft
  else if a.atFault && !b.atFault then if b.cost < a.cost then .takeRight else .preferRight
  else if a.cost < b.cost then
    if costMargin < (b.cost - a.cost) * (1 + a.progress) then .takeLeft else .preferLeft
  else if b.cost < a.cost then
    if costMargin < (a.cost - b.cost) * (1 + b.progress) then .takeRight else .preferRight
  else if b.rank < a.rank then .preferLeft
  else if a.rank < b.rank then .preferRight
  else .undecided

def canMerge (c : Contest) (v w : Nat) : Bool :=
  (c.version v).status.isActive && (c.version w).status.isActive &&
    c.places.joinable (c.version v).top (c.version w).top

def merge (c : Contest) (v w : Nat) : Contest :=
  let version := c.version v
  let places := c.places.join version.top (c.version w).top
  let top := places.place version.top
  let settled := if top.state == lost then top.shown else version.settled
  { c with places, versions :=
      (c.versions.setIfInBounds v { version with settled }).eraseIdxIfInBounds w }

def partner? (c : Contest) (others : List Nat) (w : Nat) : Option Nat :=
  others.find? fun v => c.canMerge v w

def mergeInto (c : Contest) (others : List Nat) (w : Nat) : Contest :=
  match c.partner? others w with
  | some v => c.merge v w
  | none => c

/-- Some version that has come at least as far would be better than `v` at this cost. -/
def isBeaten (c : Contest) (v cost : Nat) : Bool :=
  (c.best?.any fun t => t.cost ≤ cost) ||
    let mine : Standing :=
      { cost, progress := c.progress v, rank := (c.top v).rank, atFault := false }
    (List.range c.versions.size).any fun w =>
      w != v && (c.version w).status.isActive && c.offset v ≤ c.offset w &&
        match mine.compare (c.standing w) with
        | .takeRight => true
        | .preferRight => c.canMerge w v
        | _ => false

/-- The tree of a rule's phrase and the extras after it, from the ways to have read its parts. -/
def bestWay (label : Label) (here : Mark) : List (List Tree) → Tree × List Tree
  | [] => (.node label [] here, [])
  | way :: ways =>
    ways.foldl (fun (tree, extras) way =>
        let (parts, extras') := splitExtras way
        let other := Tree.node label parts here
        if tree.prefersSecond other then (other, extras') else (tree, extras))
      (let (parts, extras) := splitExtras way
       (.node label parts here, extras))

def putPhrase (c : Contest) (v w : Nat) (rule : Rule) (ways : List (List Tree)) : Contest :=
  let below := c.top w
  let (tree, extras) := bestWay (.phrase rule.phrase) below.mark ways
  let state := Automaton.afterPhrase below.state rule.phrase
  let c := c.push w (some { tree with rank := tree.rank + rule.rank }) state
  (c.pushAll w extras state).mergeInto ((List.range w).filter (· != v)) w

/-- Goes through the slices of a reduction, each with the version that was made for it, of which
`w` is the next. -/
def putPhrases (v limit : Nat) (rule : Rule) : List Slice → Nat → Contest → Contest
  | [], _, c => c
  | slice :: slices, w, c =>
    if limit < w then putPhrases v limit rule slices w (c.removeVersion w)
    else
      let size := c.versions.size
      let c := c.putPhrase v w rule slice.ways
      putPhrases v limit rule slices (if c.versions.size < size then w else w + 1) c

/-- Forms the phrase of a rule in a version. The version stays as it is, and there is a new one for
every place below the phrase. The number of the first new one is given, if there is any. -/
def reduce (c : Contest) (v : Nat) (rule : Rule) : Contest × Option Nat :=
  let first := c.versions.size
  let slices := c.places.slices (c.version v).top rule.parts
  let settled := (c.version v).settled
  let c := slices.foldl (fun c s => c.addVersion { top := s.place, settled }) c
  let halted := c.versions.foldl (fun n w => if w.status.isHalted then n + 1 else n) 0
  let c := putPhrases v (versionLimit + versionSurplus + halted) rule slices first c
  (c, if first < c.versions.size then some first else none)

/-- Forms the phrases of several rules. The first new version of the last rule that made one is
given. -/
def reduceAll (v : Nat) : List Rule → Contest → Option Nat → Contest × Option Nat
  | [], c, latest => (c, latest)
  | rule :: rules, c, latest =>
    let (c, new?) := c.reduce v rule
    reduceAll v rules c (new?.or latest)

end Contest

end ImportGroups.Source
