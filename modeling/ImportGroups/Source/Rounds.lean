import ImportGroups.Source.Recovery

/-!
Reading a source to its end.

In a round every version reads on until it has passed the place that the versions before it have
come to. Characters that are no token count only up to where they begin, if a version that is out of
step passes over them: the others stand before them and need not fail there in the same round. Then
the versions are compared, and the worse ones are given up. The reading is over when no version is
left, or when none can become better than the best tree that was found.
-/

namespace ImportGroups.Source

open Automaton (lost)
open Text (Bytes)

def allRulesOf (actions : List Action) : List Rule :=
  actions.filterMap fun
    | .reduce r => some r
    | _ => none

def lastStep? (actions : List Action) : Option Action :=
  actions.find? fun
    | .reduce _ => false
    | _ => true

namespace Contest

/-- Does with a token what the automaton says: forms phrases until the token is taken. A word that
does not fit as a keyword becomes an identifier, if it may be one. -/
def act : Nat → Contest → Nat → Tree → Contest
  | 0, c, _, _ => c
  | fuel + 1, c, v, token =>
    let state := (c.top v).state
    let actions := (token.symbol?.map (Automaton.actions state)).getD []
    let rules := allRulesOf actions
    let (c, new?) := reduceAll v rules c none
    match lastStep? actions, new? with
    | some (.shift target), _ => c.push v (some token) target
    | some .pass, _ => c.push v (some { token with extra := true }) state
    | some .accept, _ => c.accept v token
    | some .recover, _ => c.recover v token
    | some (.reduce _), _ => c
    | none, some w => act fuel (c.moveVersion w v) v token
    | none, none =>
      if !rules.isEmpty then c.setStatus v .halted
      else if token.symbol?.any (·.isSoft) && state != lost && Automaton.admits state .identifier
      then act fuel c v { token with label := .token .identifier }
      else if state == lost then c.recover v token
      else
        c.setVersion v
          { c.version v with status := .paused token, settled := (c.top v).shown }

/-- The version reads on until it has passed the offset `far` or has come to it, or stops. -/
def readOn (limit : Nat) : Nat → Contest → Nat → Nat → Contest × Nat
  | 0, c, _, far => (c, far)
  | fuel + 1, c, v, far =>
    if !(c.version v).status.isActive then (c, far)
    else
      let here := c.offset v
      let (token, c) := c.nextToken v
      let c := c.act limit v token
      let offset := c.offset v
      let reached := if token.isError && (c.top v).state == lost then max far here else offset
      if far < offset || 0 < v && offset == far then (c, reached)
      else readOn limit fuel c v far

def readAll (limit : Nat) : Nat → Contest → Nat → Nat → Contest × Nat
  | 0, c, _, far => (c, far)
  | fuel + 1, c, v, far =>
    if c.versions.size ≤ v then (c, far)
    else
      let (c, far) := readOn limit limit c v far
      readAll limit fuel c (v + 1) far

/-- Compares the version `i`, which has this standing, with those from `j` to before it. It says
which version comes next. -/
def sift (standing : Standing) : Nat → Contest → Nat → Nat → Contest × Nat
  | 0, c, i, _ => (c, i + 1)
  | fuel + 1, c, i, j =>
    if i ≤ j then (c, i + 1)
    else
      match (c.standing j).compare standing with
      | .takeLeft => (c.removeVersion i, i)
      | .takeRight => sift standing fuel (c.removeVersion j) (i - 1) j
      | .preferRight =>
        if c.canMerge j i then (c.merge j i, i)
        else
          let left := c.version j
          let right := c.version i
          sift standing fuel ((c.setVersion i left).setVersion j right) i (j + 1)
      | _ =>
        if c.canMerge j i then (c.merge j i, i) else sift standing fuel c i (j + 1)

/-- Compares all versions from `i` on with those before them. The least cost of a version that is in
step is given, too. -/
def siftAll : Nat → Contest → Nat → Option Nat → Contest × Option Nat
  | 0, c, _, least => (c, least)
  | fuel + 1, c, i, least =>
    if c.versions.size ≤ i then (c, least)
    else if (c.version i).status.isHalted then siftAll fuel (c.removeVersion i) i least
    else
      let c := c.settle i
      let standing := c.standing i
      let least :=
        if standing.atFault then least
        else some (least.elim standing.cost (min standing.cost))
      let (c, i) := sift standing (c.versions.size + 1) c i 0
      siftAll fuel c i least

/-- If the best version is paused, it falls out of step; other paused versions are given up. -/
def resume : Nat → Contest → Nat → Nat → Bool → Option Nat → Contest × Option Nat
  | 0, c, _, _, _, least => (c, least)
  | fuel + 1, c, i, size, resumed, least =>
    if size ≤ i then (c, least)
    else
      match (c.version i).status with
      | .paused token =>
        if !resumed && c.finished < versionLimit then
          let cost := c.cost i
          resume fuel ((c.setStatus i .active).fallOut i token) (i + 1) size true (some cost)
        else resume fuel (c.removeVersion i) i (size - 1) resumed least
      | _ => resume fuel c (i + 1) size true least

/-- Gives up the worse versions after a round. The least cost of those that are left is given. -/
def condense (c : Contest) : Contest × Option Nat :=
  let size := c.versions.size
  let (c, least) := siftAll (2 * size + 1) c 0 none
  let c := { c with versions := c.versions.take versionLimit }
  resume (versionLimit + 1) c 0 c.versions.size false least

def rounds (limit : Nat) : Nat → Contest → Nat → Contest
  | 0, c, _ => c
  | fuel + 1, c, far =>
    let (c, far) := readAll limit limit c 0 far
    let size := c.versions.size
    let (c, least) := c.condense
    let isOver := c.best?.any fun t => least.all fun cost => t.cost < cost
    if isOver || size == 0 then c else rounds limit fuel c far

def start (source : Bytes) : Contest :=
  { places := #[{ state := Automaton.initial, mark := .ofSource source }]
    versions := #[{ top := 0 }] }

end Contest

def stepLimit (source : Bytes) : Nat := 100 * (source.length + 100)

def readTree (source : Bytes) : Tree :=
  let limit := stepLimit source
  ((Contest.start source).rounds limit limit 0).best?.getD
    (.node (.phrase .sourceFile) [] (.ofSource source))

end ImportGroups.Source
