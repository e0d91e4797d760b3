import ImportGroups.Category

/-!
Import records and the groups they form.

Two imports on consecutive lines are a newline and a tab apart. A wider gap means that a blank line,
a comment or another declaration stands between them, and starts a new group.
-/

namespace ImportGroups

/-- One import of a file: its path without quotes, the byte offset of the whole spec (alias
included) and the offset just past its closing quote. -/
structure Record where
  path : String
  start : Int
  stop : Int
  deriving DecidableEq, Repr

abbrev Group := List Record

def groupGap : Int := 2

def Adjacent (a b : Record) : Prop := b.start - a.stop ≤ groupGap

instance (a b : Record) : Decidable (Adjacent a b) := inferInstanceAs (Decidable (_ ≤ _))

/-- The runs of adjacent records, in file order. -/
def groups (records : List Record) : List Group :=
  records.splitBy fun a b => decide (Adjacent a b)

def Group.category (root : String) : Group → Category
  | [] => .unknown
  | r :: rs =>
    let first := classify root r.path
    if rs.all fun s => classify root s.path == first then first else .mixed

def Group.categories (root : String) (g : Group) : CategorySet :=
  .ofList (g.map fun r => classify root r.path)

end ImportGroups
