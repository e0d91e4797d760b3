import ImportGroups.Source.Contest

/-!
Getting back into step.

A version that meets a token that does not fit first forms all phrases that it could form before any
token. Then it splits into a version with a missing token put in, if there is one with which the
token fits, into versions that go back to a state below in which the token fits, and into one that
skips the token.
-/

namespace ImportGroups.Source

open Automaton (lost)
open Stacks (Level)

/-- Rules that form the same phrase from as many parts count once. -/
def addRule (rules : List Rule) (r : Rule) : List Rule :=
  if rules.any fun s => s.phrase == r.phrase && s.parts == r.parts then rules else rules ++ [r]

/-- The rules among some actions that form a phrase from something. -/
def rulesOf (actions : List Action) : List Rule :=
  actions.filterMap fun
    | .reduce r => if 0 < r.parts then some r else none
    | _ => none

def takesToken (actions : List Action) : Bool :=
  actions.any fun
    | .shift _ => true
    | .recover => true
    | _ => false

namespace Contest

def candidates : Option Symbol → List Symbol
  | some t => [t]
  | none => Symbol.all.drop 1

def actionsBefore (symbol? : Option Symbol) (s : State) : List Action :=
  (candidates symbol?).flatMap (Automaton.actions s)

/-- Forms all phrases that can be formed before the symbol, or before any, in the version `start`
and the new ones that come from it; `v` is the next. Versions that can neither take the symbol nor
form a phrase are removed if a symbol is given. It says whether some version can take the symbol. -/
def formPhrases (symbol? : Option Symbol) (start first : Nat) :
    Nat → Nat → Nat → Bool → Contest → Contest × Bool
  | 0, _, _, able, c => (c, able)
  | fuel + 1, turn, v, able, c =>
    let size := c.versions.size
    if size ≤ v then (c, able)
    else
      match c.partner? ((List.range v).drop first) v with
      | some w => formPhrases symbol? start first fuel (turn + 1) v able (c.merge w v)
      | none =>
        let actions := actionsBefore symbol? (c.top v).state
        let (c, new?) := ((rulesOf actions).foldl addRule []).foldl
          (fun (c, _) r => c.reduce v r) (c, none)
        let next := if v == start then size else v + 1
        match takesToken actions, new?.filter fun _ => turn < versionLimit with
        | true, _ => formPhrases symbol? start first fuel (turn + 1) next true c
        | false, some w =>
          formPhrases symbol? start first fuel (turn + 1) v able (c.moveVersion w v)
        | false, none =>
          let c := if symbol?.isSome then c.removeVersion v else c
          formPhrases symbol? start first fuel (turn + 1) next able c

def turnLimit : Nat := 1000

/-- Forms all phrases that can be formed before the symbol, or before any, and says whether the
symbol can be taken then. -/
def prepare (c : Contest) (v : Nat) (symbol? : Option Symbol) : Contest × Bool :=
  formPhrases symbol? v c.versions.size turnLimit 0 v false c

/-- The version with a token put in before `next`, the first one with which `next` fits. Before the
end of the file it is enough that something fits. -/
def putMissing (c : Contest) (v : Nat) (next : Symbol) : List Symbol → Contest × Bool
  | [] => (c, false)
  | t :: ts =>
    let s := (c.top v).state
    let after := Automaton.afterSymbol s t
    if after == lost || after == s || (Automaton.rulesBefore after next).isEmpty then
      putMissing c v next ts
    else
      let w := c.versions.size
      let copy := { c.version v with levels? := none }
      let tried := (c.addVersion copy).push w (some (.missingToken t (c.top v).mark)) after
      match tried.prepare w (if next == .endOfFile then none else some next) with
      | (c, true) => (c, true)
      | (c, false) => putMissing c v next ts

/-- Lets the versions from `v` on fall out of step. A missing token is put in at most once; `first`
is the first version that is new, and those from `last` on are left alone. -/
def fall (token : Tree) (start first last : Nat) : Nat → Nat → Bool → Contest → Contest
  | 0, _, _, c => c
  | fuel + 1, v, done, c =>
    if last ≤ v then c
    else
      let (c, done) :=
        match done, token.symbol? with
        | false, some next => c.putMissing v next (Symbol.all.drop 1)
        | _, _ => (c, done)
      fall token start first last fuel (if v == start then first else v + 1) done
        (c.push v none lost)

def mergeTimes (v w : Nat) : Nat → Contest → Contest
  | 0, c => c
  | n + 1, c => mergeTimes v w n (c.mergeInto [v] w)

/-- Adds the versions that go back to one of the slices with this state. What lay above is left out,
together with what was left out there before. -/
def goBackTo (v : Nat) (state : State) : List Slice → Contest → Contest
  | [], c => c
  | slice :: slices, c =>
    let p := c.places.place slice.place
    if p.state != state then goBackTo v state slices c
    else
      let above := slice.ways.headD []
      let (base, trees) :=
        match p.links.find? fun l => l.tree?.any (·.isError) with
        | some l => (l.below, (l.tree?.map (·.children)).getD [] ++ above)
        | none => (slice.place, above)
      let (left, extras) := splitExtras trees
      let w := c.versions.size
      let c := c.addVersion { top := base, settled := (c.version v).settled }
      let c :=
        if left.isEmpty then c
        else c.push w (some { Tree.node .error left p.mark with extra := true }) state
      goBackTo v state slices (c.pushAll w extras state)

/-- Goes back to the first level in which the token fits, unless that would cost too much. -/
def goBack (v : Nat) (token : Tree) (known : Nat) : List Level → Contest → Contest
  | [], c => c
  | level :: levels, c =>
    let here := (c.top v).mark
    let depth := if 0 < c.progress v then level.depth + 1 else level.depth
    let isTaken := (List.range known).any fun w =>
      (c.top w).state == level.state && c.offset w == here.offset
    let cost := c.cost v + level.depth * Cost.skippedTree + Cost.between level.spot here.toSpot
    if level.state == lost || level.spot.offset == here.offset || isTaken then
      goBack v token known levels c
    else if c.isBeaten v cost then c
    else if token.fits level.state then
      let size := c.versions.size
      let c := goBackTo v level.state (c.places.slices (c.version v).top depth) c
      if size < c.versions.size then c else goBack v token known levels c
    else goBack v token known levels c

/-- The trees of a whole source become one tree: the last phrase takes all of them. -/
def wholeTree (here : Mark) (trees : List Tree) : Option Tree :=
  let isEnd := fun (t : Tree) => t.extra || t.label == .token .endOfFile
  let tail := (trees.reverse.takeWhile isEnd).reverse
  match (trees.reverse.dropWhile isEnd) with
  | [] => none
  | root :: before => some (.node root.label (before.reverse ++ root.children ++ tail) here)

/-- Takes a tree of the whole source into account. -/
def offer (c : Contest) (tree : Tree) : Contest :=
  { c with
    finished := c.finished + 1
    best? :=
      match c.best? with
      | none => some tree
      | some best => some (if best.prefersSecond tree then tree else best) }

/-- The version has read the whole source. -/
def accept (c : Contest) (v : Nat) (token : Tree) : Contest :=
  let c := c.push v (some token) Automaton.initial
  let trees := (c.places.wholeWays (c.version v).top).filterMap (wholeTree token.stop)
  (trees.foldl offer c).setStatus v .halted

/-- Skips a token, together with those that were skipped right before it. -/
def skip (c : Contest) (v : Nat) (token : Tree) : Contest :=
  let here := (c.top v).mark
  let skipped := Tree.node .skipped [token] here
  match decide (0 < c.progress v), c.places.slices (c.version v).top 1 with
  | true, slice :: _ =>
    let before := slice.ways.headD []
    (c.setVersion v { c.version v with top := slice.place }).push v
      (some (.node .skipped (before ++ [skipped]) here)) lost
  | _, _ => c.push v (some skipped) lost

def recover (c : Contest) (v : Nat) (token : Tree) : Contest :=
  let c := c.settle v
  let here := (c.top v).mark
  let cost := c.cost v
  let known := c.versions.size
  let c := if token.isError then c else goBack v token known ((c.version v).levels?.getD []) c
  if known < c.versions.size && versionLimit < c.versions.size then c.setStatus v .halted
  else if token.label == .token .endOfFile then
    (c.push v (some (.node .error [] here)) Automaton.initial).accept v token
  else if c.isBeaten v (cost + Cost.skippedTree + Cost.between here.toSpot token.stop.toSpot) then
    c.setStatus v .halted
  else c.skip v token

def fallOut (c : Contest) (v : Nat) (token : Tree) : Contest :=
  let first := c.versions.size
  let c := (c.prepare v none).1
  let last := c.versions.size
  let c := fall token v first last (last + 1) v false c
  let c := mergeTimes v first (last - first) c
  let c := c.setVersion v
    { c.version v with levels? := some (c.places.levels (c.version v).top) }
  c.recover v token

end Contest

end ImportGroups.Source
