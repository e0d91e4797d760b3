import ImportGroups.FileTree.Resolve

/-!
Changing a file tree.

`write` and `makeDir` follow links and create the directories above them; `link`, `remove` and
`rename` act on the entry itself.
-/

namespace ImportGroups

open Text (Bytes)

def alterEntry (name : String) (f : Option Node → Option Node) :
    List (String × Node) → List (String × Node)
  | [] => ((f none).map fun n => (name, n)).toList
  | (key, n) :: rest =>
    if key == name then ((f (some n)).map fun m => (key, m)).toList ++ rest
    else (key, n) :: alterEntry name f rest

/-- Replaces, adds or drops what stands at a place below a node, with directories on the way. A file
on the way stays as it is. -/
def Node.alter (f : Option Node → Option Node) : List String → Node → Node
  | [], n => (f (some n)).getD n
  | [name], .dir entries => .dir (alterEntry name f entries)
  | name :: names, .dir entries =>
    .dir (alterEntry name (fun n? => some ((n?.getD (.dir [])).alter f names)) entries)
  | _, n => n

namespace FileTree

def alter (t : FileTree) (place : List String) (f : Option Node → Option Node) : FileTree :=
  match t.root.alter f place with
  | .dir entries => ⟨entries⟩
  | _ => t

/-- The place of the entry that a path names; only links above it are followed. -/
def entryPlace (t : FileTree) (cwd : List String) (p : Path) : Option (List String) :=
  match p.parts.getLast? with
  | none => some (startOf cwd p)
  | some name =>
    (t.resolve cwd { p with parts := p.parts.dropLast }).toOption.map (· ++ [name])

def makeDir (t : FileTree) (cwd : List String) (p : Path) : Except FileError FileTree :=
  match t.resolve cwd p with
  | .error _ => .error .tooManyLinks
  | .ok place => .ok (t.alter place fun n? => some (n?.getD (.dir [])))

def write (t : FileTree) (cwd : List String) (p : Path) (content : Bytes) :
    Except FileError FileTree :=
  match t.resolve cwd p with
  | .error _ => .error .tooManyLinks
  | .ok place =>
    match t.nodeAt place with
    | some (.dir _) => .error .isDirectory
    | _ => .ok (t.alter place fun _ => some (.file content))

def link (t : FileTree) (cwd : List String) (p : Path) (target : String) :
    Except FileError FileTree :=
  match t.entryPlace cwd p with
  | none => .error .tooManyLinks
  | some place => .ok (t.alter place fun _ => some (.link target))

/-- Removes a file, a link or a whole directory. -/
def remove (t : FileTree) (cwd : List String) (p : Path) : Except FileError FileTree :=
  match t.entryPlace cwd p with
  | none => .error .tooManyLinks
  | some place =>
    match t.nodeAt place with
    | none => .error .notFound
    | some _ => .ok (t.alter place fun _ => none)

def rename (t : FileTree) (cwd : List String) (p q : Path) : Except FileError FileTree :=
  match t.entryPlace cwd p, t.entryPlace cwd q with
  | some source, some target =>
    match t.nodeAt source, t.nodeAt target.dropLast with
    | some n, some (.dir _) =>
      .ok ((t.alter source fun _ => none).alter target fun _ => some n)
    | _, _ => .error .notFound
  | _, _ => .error .tooManyLinks

end FileTree

end ImportGroups
