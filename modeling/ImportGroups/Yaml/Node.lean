import ImportGroups.Yaml.Scan
import ImportGroups.Yaml.Tag

/-!
Nodes of a YAML document.

The nodes of a document stand in a table and know each other by their numbers, because an alias may
stand for a node that is used elsewhere, or for one that it is inside of. `document` reads the one
document of a text. Tokens are taken from the text only as they are needed, so of several faults the
first one counts.
-/

namespace ImportGroups.Yaml

inductive Content where
  | scalar (text : String)
  | seq (items : Array Nat)
  | map (pairs : Array (Nat × Nat))
  deriving Inhabited

structure Node where
  tag : Tag
  content : Content
  /-- The pairs that merge keys brought in, which are then among the pairs of the node, too. -/
  merged? : Option (List (Nat × Nat)) := none
  deriving Inhabited

abbrev Nodes := Array Node

structure ReadState where
  scan : ScanState
  nodes : Nodes
  /-- The nodes that aliases can stand for. -/
  anchors : List (String × Nat)
  handles : List (String × String) := []
  /-- The version of the first directive that the reader has met. -/
  version? : Option Version

/-- A failed reading still tells how far it came. -/
abbrev Read := ExceptT LoadError (StateM ReadState)

namespace Read

def fail : Read α := throw .invalid

def peek : Read Token := do
  let s ← get
  match s.scan.ready with
  | .error e => throw e
  | .ok scan =>
    set { s with scan }
    return scan.tokens.headD .streamEnd

def drop : Read Unit := modify fun s => { s with scan := s.scan.take }

def accept (t : Token) : Read Bool := do
  if (← peek) == t then do drop; return true else return false

def expect (t : Token) : Read Unit := do
  if !(← accept t) then fail

def atOneOf (ts : List Token) : Read Bool := return ts.contains (← peek)

def version : Read Version := return (← get).scan.version

end Read

open Read

structure Properties where
  anchor : Option String := none
  tag : Option String := none

def defaultHandles : List (String × String) := [("!", "!"), ("!!", Tag.namespaceText)]

/-- Two digits after a percent sign stand for the character with that number. -/
def unescape : Nat → List Char → List Char
  | fuel + 1, '%' :: a :: b :: cs =>
    match hexNumber? [a, b] with
    | some n => Char.ofNat n :: unescape fuel cs
    | none => '%' :: unescape fuel (a :: b :: cs)
  | fuel + 1, c :: cs => c :: unescape fuel cs
  | _, _ => []

def fullTag (handle : Option String) (suffix : String) : Read String := do
  let suffix := String.ofList (unescape (suffix.length + 1) suffix.toList)
  match handle with
  | none => return suffix
  | some h =>
    match (← get).handles.lookup h with
    | some start => return start ++ suffix
    | none => fail

def takeAnchor (p : Properties) : Read Properties := do
  match ← peek with
  | .anchor name => drop; return { p with anchor := some name }
  | _ => return p

/-- An anchor and a tag, in either order. The handle of the tag is looked up after both. -/
def takeProperties : Read Properties := do
  let p ← takeAnchor {}
  match ← peek with
  | .tag handle suffix =>
    drop
    let p ← if p.anchor.isNone then takeAnchor p else pure p
    let tag ← fullTag handle suffix
    return { p with tag := some tag }
  | _ => return p

def Properties.isEmpty (p : Properties) : Bool := p.anchor.isNone && p.tag.isNone

def Properties.isImplicit (p : Properties) : Bool := p.tag.isNone || p.tag == some "!"

/-- The type that the form of a scalar gives it. -/
def implicitTag (text : String) : Read Tag := do
  match plainTag (← version) text with
  | some t => return t
  | none => throw .unknownVersion

def scalarTag (p : Properties) (text : String) (plain : Bool) : Read Tag :=
  match p.tag with
  | some t => if t == "!" then implicitTag text else return .ofText t
  | none => if plain then implicitTag text else return .str

def Properties.collectionTag (p : Properties) (byDefault : Tag) : Tag :=
  if p.isImplicit then byDefault else (p.tag.map Tag.ofText).getD byDefault

/-- Puts a node into the table and under its anchor. -/
def addNode (p : Properties) (tag : Tag) (content : Content) : Read Nat := do
  let s ← get
  let i := s.nodes.size
  let anchors := match p.anchor with
    | some name => (name, i) :: s.anchors
    | none => s.anchors
  set { s with nodes := s.nodes.push { tag, content }, anchors }
  return i

def Content.addItem (item : Nat) : Content → Content
  | seq items => .seq (items.push item)
  | c => c

def Content.addPair (k x : Nat) : Content → Content
  | map pairs => .map (pairs.push (k, x))
  | c => c

def changeContent (i : Nat) (f : Content → Content) : Read Unit :=
  modify fun s => { s with nodes := s.nodes.modify i fun n => { n with content := f n.content } }

def scalarNode (p : Properties) (text : String) (plain : Bool) : Read Nat := do
  addNode p (← scalarTag p text plain) (.scalar text)

def emptyNode : Read Nat := scalarNode {} "" true

def depthLimit : Nat := 487

mutual

/-- A node. Block collections are allowed in it if `block`, and a sequence at the indentation of its
parent's key if `indentless`. -/
def node : Nat → Nat → Bool → Bool → Read Nat
  | 0, _, _, _ => fail
  | fuel + 1, depth, block, indentless => do
    if depthLimit < depth then throw .tooDeep
    match ← peek with
    | .reference name =>
      drop
      match (← get).anchors.lookup name with
      | some i => return i
      | none => fail
    | _ =>
      let p ← takeProperties
      let depth := depth + 1
      match ← peek with
      | .scalar text plain =>
        drop
        scalarNode p text plain
      | .blockEntry =>
        if indentless then do
          let i ← addNode p (p.collectionTag .seq) (.seq #[])
          indentlessItems fuel depth i
        else if p.isEmpty then fail else scalarNode p "" true
      | .flowSequenceStart =>
        drop
        let i ← addNode p (p.collectionTag .seq) (.seq #[])
        flowItems fuel depth i true
      | .flowMappingStart =>
        drop
        let i ← addNode p (p.collectionTag .map) (.map #[])
        flowPairs fuel depth i true
      | .blockSequenceStart =>
        if block then do
          drop
          let i ← addNode p (p.collectionTag .seq) (.seq #[])
          blockItems fuel depth i
        else if p.isEmpty then fail else scalarNode p "" true
      | .blockMappingStart =>
        if block then do
          drop
          let i ← addNode p (p.collectionTag .map) (.map #[])
          blockPairs fuel depth i
        else if p.isEmpty then fail else scalarNode p "" true
      | _ => if p.isEmpty then fail else scalarNode p "" true

def blockItems : Nat → Nat → Nat → Read Nat
  | 0, _, _ => fail
  | fuel + 1, depth, i => do
    if ← accept .blockEntry then
      let item ←
        if ← atOneOf [.blockEntry, .blockEnd] then emptyNode else node fuel depth true false
      changeContent i (.addItem item)
      blockItems fuel depth i
    else
      expect .blockEnd
      return i

/-- The entries of a sequence that stands at its parent's indentation. -/
def indentlessItems : Nat → Nat → Nat → Read Nat
  | 0, _, _ => fail
  | fuel + 1, depth, i => do
    if ← accept .blockEntry then
      let item ← if ← atOneOf [.blockEntry, .key, .value, .blockEnd] then emptyNode
        else node fuel depth true false
      changeContent i (.addItem item)
      indentlessItems fuel depth i
    else return i

def blockPairs : Nat → Nat → Nat → Read Nat
  | 0, _, _ => fail
  | fuel + 1, depth, i => do
    let stops : List Token := [.key, .value, .blockEnd]
    let hasKey ← accept .key
    if hasKey || ((← version).isAfter11 && (← peek) == .value) then
      let k ← if !hasKey || (← atOneOf stops) then emptyNode else node fuel depth true true
      let x ← if ← accept .value then
          if ← atOneOf stops then emptyNode else node fuel depth true true
        else emptyNode
      changeContent i (.addPair k x)
      blockPairs fuel depth i
    else
      expect .blockEnd
      return i

/-- The items of the flow sequence `i` up to its end; a single pair is a mapping. -/
def flowItems : Nat → Nat → Nat → Bool → Read Nat
  | 0, _, _, _ => fail
  | fuel + 1, depth, i, first => do
    if ← accept .flowSequenceEnd then return i
    if !first then expect .flowEntry
    if ← accept .flowSequenceEnd then return i
    let item ←
      if ← accept .key then
        if depthLimit < depth then throw .tooDeep
        let j ← addNode {} .map (.map #[])
        let stops : List Token := [.value, .flowEntry, .flowSequenceEnd]
        let k ← if ← atOneOf stops then emptyNode else node fuel (depth + 1) false false
        let x ← if ← accept .value then
            if ← atOneOf [.flowEntry, .flowSequenceEnd] then emptyNode
            else node fuel (depth + 1) false false
          else emptyNode
        changeContent j (.addPair k x)
        pure j
      else node fuel depth false false
    changeContent i (.addItem item)
    flowItems fuel depth i false

def flowPairs : Nat → Nat → Nat → Bool → Read Nat
  | 0, _, _, _ => fail
  | fuel + 1, depth, i, first => do
    if ← accept .flowMappingEnd then return i
    if !first then expect .flowEntry
    if ← accept .flowMappingEnd then return i
    let hasKey ← accept .key
    let (k, x) ←
      if hasKey || ((← version).isAfter11 && (← peek) == .value) then do
        let k ← if !hasKey || (← atOneOf [.value, .flowEntry, .flowMappingEnd]) then emptyNode
          else node fuel depth false false
        let x ← if ← accept .value then
            if ← atOneOf [.flowEntry, .flowMappingEnd] then emptyNode
            else node fuel depth false false
          else emptyNode
        pure (k, x)
      else do
        let k ← node fuel depth false false
        let x ← emptyNode
        pure (k, x)
    changeContent i (.addPair k x)
    flowPairs fuel depth i false

end

/-- The directives of a document. A version other than 1.x, a second version and a handle given
twice are refused. -/
def directives : Nat → Option Version → List (String × String) →
    Read (Option Version × List (String × String))
  | 0, _, _ => fail
  | fuel + 1, version?, handles => do
    match ← peek with
    | .directive d =>
      drop
      match d with
      | .version v =>
        if version?.isSome || v.major != 1 then fail else directives fuel (some v) handles
      | .tag handle start =>
        if (handles.lookup handle).isSome then fail
        else directives fuel version? ((handle, start) :: handles)
      | .other => directives fuel version? handles
    | _ => return (version?, handles)

/-- The first version that a document asks for becomes that of the reader. It has to be 1.1 or 1.2.
-/
def adoptVersion (version? : Option Version) : Read Unit := do
  let s ← get
  match s.version?, version? with
  | none, some v =>
    if v == .v11 || v == .v12 then set { s with version? := some v } else throw .refusedVersion
  | _, _ => return

def documentHead (fuel : Nat) : Read Unit := do
  let (version?, handles) ← directives fuel none []
  adoptVersion version?
  modify fun s => { s with handles := handles ++ defaultHandles }
  expect .documentStart

def atDocumentEdge : Read Bool := do
  match ← peek with
  | .streamEnd | .directive _ | .documentStart | .documentEnd => return true
  | _ => return false

def documentNode (fuel : Nat) : Read (Option Nat) := do
  match ← peek with
  | .streamEnd => return none
  | .directive _ | .documentStart =>
    documentHead fuel
    if ← atDocumentEdge then return some (← emptyNode)
    else return some (← node fuel 0 true false)
  | _ =>
    modify fun s => { s with handles := defaultHandles }
    return some (← node fuel 0 true false)

def skipDocumentEnds : Nat → Read Unit
  | 0 => return
  | fuel + 1 => do
    if ← accept .documentEnd then skipDocumentEnds fuel

/-- Nothing but the end of the text follows a document. Of another one the head is read. -/
def documentTail (fuel : Nat) (closed : Bool) : Read Unit := do
  if closed && (← version) != .v11 then
    match ← peek with
    | .streamEnd => return
    | .directive _ | .documentStart => documentHead fuel; fail
    | _ => fail
  else
    skipDocumentEnds fuel
    if (← peek) != .streamEnd then
      documentHead fuel
      fail

/-- The single document of a text, if there is any. Its anchors are forgotten after it. -/
def document (fuel : Nat) : Read (Option Nat) := do
  match ← documentNode fuel with
  | none => return none
  | some i =>
    let closed ← accept .documentEnd
    modify fun s => { s with anchors := [] }
    documentTail fuel closed
    return some i

end ImportGroups.Yaml
