import ImportGroups.FileTree.Basic
import ImportGroups.Pattern.Basic
import ImportGroups.Text.Lines

/-!
The Go files below a directory.

A directory's files come before what is below its subdirectories, each in the order of names. A
`.git` directory is never entered, nor is the vendor directory at the top, nor a linked directory,
nor one that is ignored. What is below a directory whose path is too long is not found. A start that
is a file stands for itself.
-/

namespace ImportGroups

open Text (Bytes)

inductive Visit where
  | goFile (p : Path)
  | skippedVendor (p : Path)
  | skippedDirectory (p : Path)
  | skippedFile (p : Path)
  deriving DecidableEq, Repr

def Visit.file? : Visit → Option Path
  | goFile p => some p
  | _ => none

def isGoFile (name : String) : Bool :=
  ".go".toList.isSuffixOf name.toList && name.toList.head? != some '.'

/-- What a walk leaves out: the vendor directory's name and a predicate on paths relative to the
start, which end in a slash for directories. -/
structure WalkRules where
  vendor : String
  ignored : String → Bool

def entryLe (a b : String × Node) : Bool := a.1 ≤ b.1

def Node.sorted : Node → Node
  | .dir entries => .dir ((sortedEntries entries).mergeSort entryLe)
  | n => n
where
  sortedEntries : List (String × Node) → List (String × Node)
    | [] => []
    | (name, n) :: rest => (name, n.sorted) :: sortedEntries rest

namespace FileTree

def leadsToDir (t : FileTree) (here : List String) : String × Node → Bool
  | (_, .dir _) => true
  | (_, .file _) => false
  | (name, .link _) =>
    match t.locate here ⟨.relative, [name]⟩ with
    | .ok (_, n) => n.isDir
    | .error _ => false

end FileTree

/-- Where a walk is: the real place of a directory, the path to show for it, its path relative to the
start, empty or with a slash at its end, and the size of the path by which it is opened. -/
structure WalkPlace where
  here : List String
  shown : Path
  below : String
  size : Nat

namespace WalkPlace

def top (here : List String) (start : Path) : WalkPlace where
  here := here
  shown := start
  below := ""
  size := start.baseSize

def enter (w : WalkPlace) (name : String) : WalkPlace where
  here := w.here ++ [name]
  shown := w.shown.child name
  below := w.below ++ name ++ "/"
  size := w.size + (name.utf8ByteSize + 1)

def opens (w : WalkPlace) : Bool := w.size ≤ FileTree.maxPathSize

def isTop (w : WalkPlace) : Bool := w.below == ""

def leavesOut (rules : WalkRules) (w : WalkPlace) (name : String) : Bool :=
  name == ".git" || (w.isTop && name == rules.vendor) || rules.ignored (w.below ++ name ++ "/")

/-- What is said about a subdirectory that is left out. -/
def dirVisit? (rules : WalkRules) (w : WalkPlace) (name : String) : Option Visit :=
  if name == ".git" then none
  else if w.isTop && name == rules.vendor then some (.skippedVendor (w.shown.child name))
  else if rules.ignored (w.below ++ name ++ "/") then some (.skippedDirectory (w.shown.child name))
  else none

def fileVisit? (rules : WalkRules) (w : WalkPlace) (name : String) : Option Visit :=
  if !isGoFile name then none
  else if rules.ignored (w.below ++ name) then some (.skippedFile (w.shown.child name))
  else some (.goFile (w.shown.child name))

end WalkPlace

namespace FileTree

/-- What is said about the entries of one directory themselves. -/
def ownVisits (t : FileTree) (rules : WalkRules) (w : WalkPlace) (entries : List (String × Node)) :
    List Visit :=
  ((entries.filter (t.leadsToDir w.here)).filterMap fun e => w.dirVisit? rules e.1) ++
    (entries.filter (!t.leadsToDir w.here ·)).filterMap fun e => w.fileVisit? rules e.1

mutual

def dirVisits (t : FileTree) (rules : WalkRules) (w : WalkPlace) : Node → List Visit
  | .dir entries =>
    if w.opens then t.ownVisits rules w entries ++ t.subVisits rules w entries else []
  | _ => []

/-- The visits inside the subdirectories among the entries. -/
def subVisits (t : FileTree) (rules : WalkRules) (w : WalkPlace) : List (String × Node) → List Visit
  | [] => []
  | (name, n) :: rest =>
    (if w.leavesOut rules name then [] else t.dirVisits rules (w.enter name) n) ++
      t.subVisits rules w rest

end

mutual

def depth (t : FileTree) (rules : WalkRules) (w : WalkPlace) : Node → Nat
  | .dir entries => if w.opens then t.subDepth rules w entries else 0
  | _ => 0

/-- How many directories it goes down through one of the entries. A linked directory is looked at,
too, before it is left alone. -/
def subDepth (t : FileTree) (rules : WalkRules) (w : WalkPlace) : List (String × Node) → Nat
  | [] => 0
  | (name, n) :: rest =>
    max (if t.leadsToDir w.here (name, n) && !w.leavesOut rules name
        then t.depth rules (w.enter name) n + 1 else 0)
      (t.subDepth rules w rest)

end

/-- How many directories a run can go down. -/
def maxDepth : Nat := 994

def visits (t : FileTree) (cwd : List String) (start : Path) (rules : WalkRules) :
    Except Fault (List Visit) :=
  if start.hasNul then .error .nulInPath
  else
    match t.locate cwd start with
    | .ok (_, .file _) => .ok [.goFile start]
    | .ok (here, n) => .ok (t.dirVisits rules (.top here start) n.sorted)
    | .error .nameTooLong => .error .longName
    | .error _ => .ok []

end FileTree

def ignoreLines (content : Bytes) : List String :=
  let lines := (Text.lines (Text.unifyNewlines (Text.decodeUtf8Lossy content).toList)).map
    fun l => Text.trimWhile Text.isBlank l
  (lines.filter fun l => !l.isEmpty && l.head? != some '#').map String.ofList

def FileTree.ignoreSpec? (t : FileTree) (cwd : List String) (dir : Path) :
    Except Fault (Option PatternSpec) := do
  match ← t.find? cwd (dir.child ".gitignore") with
  | some (.file content) =>
    ((PatternSpec.ofLines (ignoreLines content)).map some).mapError .badPattern
  | _ => return none

end ImportGroups
