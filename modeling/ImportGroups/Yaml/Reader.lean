import ImportGroups.Yaml.Build

/-!
A reader of YAML texts.

A reader keeps some things from one text to the next: the version of the first directive that it has
met, and contents that it did not come to build because of a fault.
-/

namespace ImportGroups.Yaml

structure Reader where
  version? : Option Version := none
  builder : Builder := {}
  deriving Inhabited

namespace Reader

/-- The version that the reader takes for a text without a directive. -/
def version (r : Reader) : Version := r.version?.getD .v12

def before (r : Reader) (scan : ScanState) : ReadState where
  scan
  nodes := r.builder.nodes
  anchors := []
  version? := r.version?

def keep (r : Reader) (after : ReadState) : Reader where
  version? := after.version?
  builder := r.builder.withNodes after.nodes

def giveUp (r : Reader) (after : ReadState) : Reader := { r with version? := after.version? }

def readNode (r : Reader) (text : List Char) :
    Except LoadError (Option Nat × Version) × Reader :=
  match ScanState.ofText r.version text with
  | .error e => (.error e, r)
  | .ok scan =>
    match (document (12 * text.length + 50)).run (r.before scan) with
    | (.ok root?, after) => (.ok (root?, after.scan.version), r.keep after)
    | (.error e, after) => (.error e, r.giveUp after)

/-- The value of a document that was read, and the reader after it. What is left of a failed
construction is of no use unless something is still to be built. -/
def build (r : Reader) (v : Version) (root : Nat) : Except LoadError Value × Reader :=
  match (buildDocument v root).run r.builder with
  | (.ok value, _) => (.ok value, { r with builder := {} })
  | (.error e, builder) => (.error e, { r with builder := if builder.isIdle then {} else builder })

/-- The value of a text with line feeds as line ends, and the reader after it. A text without a
document has the value null. -/
def load (r : Reader) (text : List Char) : Except LoadError Value × Reader :=
  match r.readNode text with
  | (.error e, r) => (.error e, r)
  | (.ok (none, _), r) => (.ok .null, r)
  | (.ok (some root, v), r) => r.build v root

end Reader

end ImportGroups.Yaml
