import ImportGroups.Yaml.Node
import ImportGroups.Yaml.Scalar

/-!
From nodes to values.

Scalars are built where they stand. The contents of a collection are built later, after those of all
collections that were met before it, unless it is part of a key. So of several faults the one that
is nearest to the root counts. What a key needs is built at once, and a node that is needed inside
itself then counts as null.

A merge key brings in the pairs of other mappings where the mapping has none of its own.
-/

namespace ImportGroups.Yaml

inductive Item where
  | value (v : Value)
  /-- The collection of a node, whose contents may not be there yet. -/
  | collection (i : Nat)
  | pair (k x : Item)
  deriving Inhabited

inductive Contents where
  | items (xs : List Item)
  | pairs (kxs : List (Value × Item))
  | members (ks : List Value)
  deriving Inhabited

inductive Stage where
  | fresh
  | underway
  | built (item : Item)
  deriving Inhabited

structure Builder where
  nodes : Nodes := #[]
  stages : Array Stage := #[]
  contents : Array Contents := #[]
  /-- The collections whose contents are still to be built. -/
  pending : Array Nat := #[]
  /-- Contents are built at once. -/
  atOnce : Bool := false
  deriving Inhabited

/-- A failed construction leaves its traces. -/
abbrev Build := ExceptT LoadError (StateM Builder)

namespace Builder

def node (b : Builder) (i : Nat) : Node := b.nodes[i]?.getD default

def stage (b : Builder) (i : Nat) : Stage := b.stages[i]?.getD .fresh

def setStage (b : Builder) (i : Nat) (s : Stage) : Builder :=
  { b with stages := b.stages.setIfInBounds i s }

def contentsOf (b : Builder) (i : Nat) : Contents := b.contents[i]?.getD (.items [])

def setContents (b : Builder) (i : Nat) (c : Contents) : Builder :=
  { b with contents := b.contents.setIfInBounds i c }

def setNode (b : Builder) (i : Nat) (n : Node) : Builder :=
  { b with nodes := b.nodes.setIfInBounds i n }

/-- Nothing is left to be built, and nothing is being built for a key. -/
def isIdle (b : Builder) : Bool := b.pending.isEmpty && !b.atOnce

def withNodes (b : Builder) (nodes : Nodes) : Builder :=
  let more := nodes.size - b.stages.size
  { b with
    nodes
    stages := b.stages ++ Array.replicate more .fresh
    contents := b.contents ++ Array.replicate more (.items []) }

end Builder

def Node.pairs (n : Node) : List (Nat × Nat) :=
  match n.content with
  | .map pairs => pairs.toList
  | _ => []

def Node.isMapping (n : Node) : Bool :=
  match n.content with
  | .map _ => true
  | _ => false

def scalarText (b : Builder) : Nat → Nat → Except LoadError String
  | 0, _ => .error .tooDeep
  | fuel + 1, i =>
    match (b.node i).content with
    | .scalar text => .ok text
    | .seq _ => .error .invalid
    | .map pairs =>
      match pairs.find? fun (k, _) => (b.node k).tag == .defaultValue with
      | some (_, x) => scalarText b fuel x
      | none => .error .invalid

def nameDefaultKeys (b : Builder) (pairs : List (Nat × Nat)) : Builder :=
  pairs.foldl (fun b (k, _) =>
    let n := b.node k
    if n.tag == .defaultValue then b.setNode k { n with tag := .str } else b) b

def setPairs (i : Nat) (pairs : List (Nat × Nat)) : Build Unit :=
  modify fun b => b.setNode i { b.node i with content := .map pairs.toArray }

mutual

/-- Takes the merge keys out of a mapping and puts the pairs that they bring in before its own. -/
def flatten : Nat → Nat → Build Unit
  | 0, _ => throw .tooDeep
  | fuel + 1, i => do
    let merged ← takeMerges fuel i 0 []
    if !merged.isEmpty then
      modify fun b =>
        let n := b.node i
        b.setNode i { n with content := .map (merged ++ n.pairs).toArray, merged? := some merged }

/-- The pairs that the merge keys of a mapping bring in, from the pair `start` on. Only the last
merge key may bring in something. -/
def takeMerges : Nat → Nat → Nat → List (Nat × Nat) → Build (List (Nat × Nat))
  | 0, _, _, _ => throw .tooDeep
  | fuel + 1, i, start, merged => do
    let b ← get
    let pairs := (b.node i).pairs
    let isMerge := fun (pair : Nat × Nat) => (b.node pair.1).tag == .merge
    let before := (pairs.drop start).takeWhile (!isMerge ·)
    set (nameDefaultKeys b before)
    match pairs.drop (start + before.length) with
    | [] => return merged
    | (_, x) :: after =>
      if !merged.isEmpty then throw .invalid
      setPairs i (pairs.take (start + before.length) ++ after)
      takeMerges fuel i (start + before.length) (← mergedPairs fuel x)

def mergedPairs : Nat → Nat → Build (List (Nat × Nat))
  | 0, _ => throw .tooDeep
  | fuel + 1, x => do
    match ((← get).node x).content with
    | .map _ =>
      flatten fuel x
      return ((← get).node x).pairs
    | .seq items =>
      items.toList.foldlM (fun merged x => do
        if !((← get).node x).isMapping then throw .invalid
        flatten fuel x
        return ((← get).node x).pairs ++ merged) []
    | .scalar _ => throw .invalid

end

def Item.keyPart? : Item → Option Value
  | value v => some v
  | collection _ => none
  | pair k x => do return .tuple [← k.keyPart?, ← x.keyPart?]

/-- The key that an item makes. A sequence becomes a tuple, `none` if that holds a collection. Other
collections are no keys. -/
def keyOf (b : Builder) : Item → Except LoadError (Option Value)
  | .collection i =>
    match (b.node i).tag, b.contentsOf i with
    | .seq, .items xs | .pairs, .items xs => .ok ((xs.mapM Item.keyPart?).map .tuple)
    | _, _ => .error .invalid
  | item => .ok item.keyPart?

abbrev Pairs := List (Value × Item)

def Pairs.find? (k : Value) (pairs : Pairs) : Option Item :=
  (List.find? (fun kx => kx.1.sameKey k) pairs).map (·.2)

def Pairs.put (k : Value) (x : Item) : Pairs → Pairs
  | [] => [(k, x)]
  | (k', x') :: rest => if k'.sameKey k then (k', x) :: rest else (k', x') :: Pairs.put k x rest

def Item.isTooLong : Item → Bool
  | value v => v.isTooLong
  | _ => false

/-- A key may stand once only. What is said about a second one names the values. -/
def requireNew (pairs : Pairs) (k : Value) (x : Item) : Build Unit :=
  match pairs.find? k with
  | none => return
  | some old =>
    throw (if k.isTooLong || x.isTooLong || old.isTooLong then .malformedNumber else .invalid)

def singlePair (i : Nat) : Build (Nat × Nat) := do
  match ((← get).node i).content with
  | .map pairs =>
    match pairs.toList with
    | [pair] => return pair
    | _ => throw .invalid
  | _ => throw .invalid

def buildScalar (v : Version) (i : Nat) : Build Item := do
  let b ← get
  match (b.node i).tag, (b.node i).content with
  | .timestamp, .seq _ | .timestamp, .map _ => throw .invalid
  | tag, _ =>
    let text ← MonadExcept.ofExcept (scalarText b (b.nodes.size + 1) i)
    return .value (← MonadExcept.ofExcept (scalarValue v tag text))

def Contents.empty? : Tag → Option Contents
  | .seq | .pairs => some (.items [])
  | .map | .orderedMap => some (.pairs [])
  | .set => some (.members [])
  | _ => none

/-- The pairs of the mapping `i`, whose parts `build` builds, the keys at once. Without a merge
every key may stand once only; with one, later pairs replace earlier ones. -/
def mappingPairs (build : Nat → Bool → Build Item) (i : Nat) : Build Pairs := do
  flatten (4 * (← get).nodes.size + 10) i
  let n := (← get).node i
  (n.merged?.getD [] ++ n.pairs).foldlM (fun done (k, x) => do
    let item ← build k true
    let key? ← MonadExcept.ofExcept (keyOf (← get) item)
    let value ← build x false
    match key? with
    | none => throw .collectionInKey
    | some key =>
      if n.merged?.isNone then requireNew done key value
      return Pairs.put key value done) []

/-- The pairs of an ordered mapping, which is a sequence of single pairs and has every key once. -/
def orderedPairs (build : Nat → Bool → Build Item) (items : List Nat) : Build Pairs :=
  items.foldlM (fun done i => do
    let (k, x) ← singlePair i
    match (← build k false).keyPart? with
    | none => throw .collectionInKey
    | some key =>
      if (Pairs.find? key done).isSome then throw .repeatedKey
      return Pairs.put key (← build x false) done) []

def contentsAt (build : Nat → Bool → Build Item) (i : Nat) : Build Contents := do
  let n := (← get).node i
  match n.tag, n.content with
  | .seq, .seq items => return .items (← items.toList.mapM fun x => build x false)
  | .pairs, .seq items =>
    return .items (← items.toList.mapM fun i => do
      let (k, x) ← singlePair i
      return .pair (← build k false) (← build x false))
  | .orderedMap, .seq items => return .pairs (← orderedPairs build items.toList)
  | .map, .map _ => return .pairs (← mappingPairs build i)
  | .set, .map _ => return .members ((← mappingPairs build i).map (·.1))
  | _, _ => throw .invalid

def keyDepthLimit : Nat := 195

def build (v : Version) : Nat → Nat → Bool → Build Item
  | 0, _, _ => throw .tooDeep
  | depth + 1, i, isKey => do
    match (← get).stage i with
    | .built item => return item
    | .underway =>
      if isKey then modify fun b => { b with atOnce := true }
      return .value .null
    | .fresh =>
      let before := (← get).atOnce
      modify fun b => { b.setStage i .underway with atOnce := before || isKey }
      let item ← match Contents.empty? ((← get).node i).tag with
        | none => buildScalar v i
        | some contents => do
          modify fun b => b.setContents i contents
          if before || isKey then
            let contents ← contentsAt (build v depth) i
            modify fun b => b.setContents i contents
          else modify fun b => { b with pending := b.pending.push i }
          pure (.collection i)
      modify fun b =>
        { b.setStage i (.built item) with atOnce := if isKey then before else b.atOnce }
      return item

def fill (v : Version) (i : Nat) : Build Unit := do
  let contents ← contentsAt (build v keyDepthLimit) i
  modify fun b => b.setContents i contents

/-- Builds contents until none are left to be built, in rounds: what comes up in a round waits for
the next one. -/
def fillPending (v : Version) : Nat → Build Unit
  | 0 => return
  | rounds + 1 => do
    let pending := (← get).pending.toList
    if !pending.isEmpty then
      modify fun b => { b with pending := #[] }
      pending.forM (fill v)
      fillPending v rounds

/-- The value of an item. Collections that are nested deeper than `depth` come out empty. -/
def Item.toValue (b : Builder) : Nat → Item → Value
  | _, .value v => v
  | 0, _ => .seq []
  | depth + 1, .pair k x => .tuple [k.toValue b depth, x.toValue b depth]
  | depth + 1, .collection i =>
    match b.contentsOf i with
    | .items xs => .seq (xs.map (Item.toValue b depth))
    | .pairs kxs => .map (kxs.map fun (k, x) => (k, x.toValue b depth))
    | .members ks => .set ks

/-- Builds the value of a document. A configuration looks at no more than two levels of it. -/
def buildDocument (v : Version) (root : Nat) : Build Value := do
  let item ← build v keyDepthLimit root false
  fillPending v ((← get).nodes.size + 1)
  return item.toValue (← get) 2

end ImportGroups.Yaml
