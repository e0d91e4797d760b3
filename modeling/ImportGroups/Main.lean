import ImportGroups.CommandLine.Run
import ImportGroups.FileTree.Edit

/-!
The program.

The part of the disk that a run can look at is copied into a file tree first, and the run itself is
a function of that tree. The copy holds the paths to check with all below them, the configuration
file, and the `go.mod` files of the working directory and of those above it. A link is kept as a
link to the place where it ends.
-/

namespace ImportGroups.Program

open Text (Bytes)
open CommandLine (Environment)

/-- A run may read a file of this name when it comes across it. -/
def isRead (name : String) : Bool := isGoFile name || name == ".gitignore"

def changed (t : FileTree) (r : Except FileError FileTree) : FileTree := r.toOption.getD t

/-- The place of the disk where a path ends, if it leads anywhere. -/
def realPlace? (p : String) : IO (Option String) := do
  match ← (IO.FS.realPath p).toBaseIO with
  | .ok real => return some real.toString
  | .error _ => return none

def contentOf (place : String) : IO Bytes := return (← IO.FS.readBinFile place).toList

/-- Adds the file or the empty directory at a place without links. A file that will not be read is
added as an empty one, unless it is there already. -/
def addEntry (t : FileTree) (place : String) (withContent : Bool) : IO FileTree := do
  let p := Path.ofString place
  if ← (← IO.FS.realPath place).isDir then return changed t (t.makeDir [] p)
  else if withContent then return changed t (t.write [] p (← contentOf place))
  else if (t.nodeAt p.parts).isSome then return t
  else return changed t (t.write [] p [])

/-- Adds a place without links and all below it. -/
partial def addBelow (t : FileTree) (place : String) : IO FileTree := do
  let mut tree ← addEntry t place true
  let dir ← IO.FS.realPath place
  if ← dir.isDir then
    for entry in ← dir.readDir do
      let path := ((Path.ofString place).child entry.fileName).toString
      match ← realPlace? path with
      | none => pure ()
      | some real =>
        if real == path then
          if ← (← IO.FS.realPath path).isDir then tree ← addBelow tree path
          else tree ← addEntry tree path (isRead entry.fileName)
        else
          tree ← addEntry tree real (isRead entry.fileName)
          tree := changed tree (tree.link [] (.ofString path) real)
  return tree

/-- Adds the directories and links on the way to a path, and says where it ends. -/
def addWay (t : FileTree) (cwd : List String) (p : Path) : IO (FileTree × Option String) := do
  let mut tree := t
  let mut here := some (Path.absolute (FileTree.startOf cwd p)).toString
  for name in p.parts do
    match here with
    | none => pure ()
    | some place =>
      let path := ((Path.ofString place).child name).toString
      here ← realPlace? path
      match here with
      | none => pure ()
      | some real =>
        tree ← addEntry tree real false
        if name != ".." && real != path then
          tree := changed tree (tree.link [] (.ofString path) real)
  return (tree, here)

/-- Adds a file or an empty directory with the links on the way to it. -/
def addFile (t : FileTree) (cwd : List String) (p : Path) : IO FileTree := do
  match ← addWay t cwd p with
  | (tree, some place) => addEntry tree place true
  | (tree, none) => return tree

def addStart (t : FileTree) (cwd : List String) (p : Path) : IO FileTree := do
  match ← addWay t cwd p with
  | (tree, some place) => addBelow tree place
  | (tree, none) => return tree

/-- A directory and those above it, from the inside out. -/
def directoriesUp : List String → List (List String)
  | [] => [[]]
  | name :: above => (name :: above) :: directoriesUp above

/-- The part of the disk that a run with these words can look at. -/
def snapshot (cwd : List String) (env : Environment) (args : List String) : IO FileTree := do
  let mut tree := changed {} (({} : FileTree).makeDir [] (.absolute cwd))
  match CommandLine.parse args with
  | .ok (.check settings paths) =>
    tree ← addFile tree cwd (settings.configPath?.getD (.ofString configFileName))
    for dir in directoriesUp cwd.reverse do
      tree ← addFile tree cwd ((Path.absolute dir.reverse).child goModName)
    for entry in gopathEntries env.gopath do
      tree := (← addWay tree cwd (.ofString entry)).1
    for path in paths do
      tree ← addStart tree cwd (.ofString path)
  | _ => pure ()
  return tree

def environment : IO Environment := do
  let gopath ← IO.getEnv "GOPATH"
  let debug ← IO.getEnv "GO3MPORTS_DEBUG"
  return { gopath := gopath.getD "", debug := debug.getD "" }

/-- The program with the words after its name. A run that a fault breaks off exits with 1. -/
def execute (args : List String) : IO UInt32 := do
  let cwd := (Path.ofString (← IO.FS.realPath ".").toString).parts
  let env ← environment
  let tree ← snapshot cwd env args
  let outcome := (CommandLine.run tree cwd env {} args).1
  IO.print outcome.out
  IO.eprint outcome.err
  match outcome.exit with
  | .ok status => return status.toUInt32
  | .error _ => return 1

end ImportGroups.Program

def main (args : List String) : IO UInt32 := ImportGroups.Program.execute args
