import ImportGroups.Source.Rounds

/-!
The outline of a Go source: what its tree shows of package clauses, imports and faults.
-/

namespace ImportGroups.Source

open Text (Bytes)

inductive Event where
  | packageClause (start stop : Spot)
  | importDeclaration (start stop : Spot)
  /-- An import spec; `path` is where its literal starts. -/
  | importSpec (start path stop : Spot) (literal : Bytes)
  /-- Something that is neither package clause nor import declaration starts here. -/
  | otherItem (start : Spot)
  /-- Text that does not fit, or a missing token. `openImport` says that the text starts with
  an import declaration that was not finished. -/
  | fault (start : Spot) (openImport : Bool)
  deriving DecidableEq, Repr

namespace Tree

def visibleAmong : Nat → List Tree → List Tree
  | 0, _ => []
  | _, [] => []
  | fuel + 1, t :: ts =>
    if t.isVisible then t :: visibleAmong fuel ts else visibleAmong fuel (t.children ++ ts)

def visibleChildren (t : Tree) : List Tree := visibleAmong t.size t.children

def text (t : Tree) : Bytes := t.start.rest.take (t.stop.offset - t.start.offset)

def isString (t : Tree) : Bool :=
  t.label == .phrase .string || t.label == .phrase .rawString

def isOpenImport (t : Tree) : Bool :=
  (t.visibleChildren.head?.map (·.label)) == some (.token .importWord)

/-- What the root of a tree shows. A missing token that is never shown is no fault. -/
def event? (t : Tree) : Option Event :=
  if !t.isVisible then none
  else if t.isError || t.missing then some (.fault t.start.toSpot t.isOpenImport)
  else
    match t.label with
    | .phrase .packageClause => some (.packageClause t.start.toSpot t.stop.toSpot)
    | .phrase .importDeclaration => some (.importDeclaration t.start.toSpot t.stop.toSpot)
    | .phrase .importSpec =>
      (t.visibleChildren.reverse.find? isString).map fun path =>
        .importSpec t.start.toSpot path.start.toSpot path.stop.toSpot path.text
    | _ => none

/-- What some trees and all below them show, put before what was found so far. The latest comes
first. -/
def collectEvents : Nat → List Tree → List Event → List Event
  | 0, _, found => found
  | _, [], found => found
  | fuel + 1, t :: ts, found =>
    let found := match t.event? with
      | some e => e :: found
      | none => found
    collectEvents fuel (t.children ++ ts) found

def isHeaderItem (t : Tree) : Bool :=
  t.isError || t.label == .phrase .packageClause || t.label == .phrase .importDeclaration ||
    t.label == .token .comment

def events (t : Tree) : List Event :=
  let items := t.visibleChildren.filter fun item => !item.isHeaderItem
  items.map (fun item => .otherItem item.start.toSpot) ++ (collectEvents t.size [t] []).reverse

end Tree

structure Outline where
  events : List Event
  /-- The source could not be read without leaving something out or putting something in. -/
  hasFault : Bool

def readSource (source : Bytes) : Outline :=
  let tree := readTree source
  ⟨tree.events, tree.cost != 0⟩

end ImportGroups.Source
