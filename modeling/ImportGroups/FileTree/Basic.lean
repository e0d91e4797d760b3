import ImportGroups.Fault
import ImportGroups.Path
import ImportGroups.Text.Utf8
import ImportGroups.Text.Quoted

/-!
File trees.

A tree holds regular files, directories and symbolic links. `nodeAt` looks at an entry itself;
`locate` follows links as the operating system does, up to a fixed number of them, and fails with
the system's error.
-/

namespace ImportGroups

open Text (Bytes)

inductive Node where
  | file (content : Bytes)
  | dir (entries : List (String × Node))
  | link (target : String)

structure FileTree where
  entries : List (String × Node) := []

/-- Why an access failed. -/
inductive FileError where
  | notFound
  | notDirectory
  | isDirectory
  | nameTooLong
  | tooManyLinks
  deriving DecidableEq, Repr

namespace FileError

def number : FileError → Nat
  | notFound => 2
  | notDirectory => 20
  | isDirectory => 21
  | nameTooLong => 36
  | tooManyLinks => 40

def text : FileError → String
  | notFound => "No such file or directory"
  | notDirectory => "Not a directory"
  | isDirectory => "Is a directory"
  | nameTooLong => "File name too long"
  | tooManyLinks => "Too many levels of symbolic links"

def message (e : FileError) (path : Path) : String :=
  "[Errno " ++ toString e.number ++ "] " ++ e.text ++ ": " ++ Text.quote path.toString

end FileError

namespace Node

def isDir : Node → Bool
  | dir _ => true
  | _ => false

def isFile : Node → Bool
  | file _ => true
  | _ => false

/-- The entry below a node, without following links. -/
def nodeAt (n : Node) : List String → Option Node
  | [] => some n
  | name :: names =>
    match n with
    | dir entries =>
      match entries.lookup name with
      | some m => m.nodeAt names
      | none => none
    | _ => none

end Node

/-- The components of a link's target. A slash at its end asks for a directory. -/
def linkParts (target : String) : List String :=
  Text.segments '/' target ++ if target.toList.getLast? == some '/' then ["."] else []

namespace FileTree

def root (t : FileTree) : Node := .dir t.entries

def nodeAt (t : FileTree) (parts : List String) : Option Node := t.root.nodeAt parts

def maxLinks : Nat := 40

/-- How many bytes a component of a path may have. -/
def maxNameSize : Nat := 255

def maxPathSize : Nat := 4095

def linkStart (here : List String) (target : String) : List String :=
  if (Path.ofString target).isAbsolute then [] else here

/-- The real place of `rest` seen from the directory `here`, and what stands there. -/
def locateFrom (t : FileTree) (links : Nat) (here : List String) :
    List String → Except FileError (List String × Node)
  | [] =>
    match t.nodeAt here with
    | some n => .ok (here, n)
    | none => .error .notFound
  | name :: rest =>
    if name == "." then locateFrom t links here rest
    else if name == ".." then locateFrom t links here.dropLast rest
    else if maxNameSize < name.utf8ByteSize then .error .nameTooLong
    else
      match t.nodeAt (here ++ [name]) with
      | none => .error .notFound
      | some (.dir _) => locateFrom t links (here ++ [name]) rest
      | some (.file content) =>
        if rest.isEmpty then .ok (here ++ [name], .file content) else .error .notDirectory
      | some (.link target) =>
        match links with
        | 0 => .error .tooManyLinks
        | links + 1 => locateFrom t links (linkStart here target) (linkParts target ++ rest)
termination_by rest => (links, rest.length)

def startOf (cwd : List String) (p : Path) : List String :=
  if p.isAbsolute then [] else cwd

/-- What an access to `p` reaches. A path with a NUL names nothing. -/
def locate (t : FileTree) (cwd : List String) (p : Path) : Except FileError (List String × Node) :=
  if p.hasNul then .error .notFound
  else if maxPathSize < p.toString.utf8ByteSize then .error .nameTooLong
  else t.locateFrom maxLinks (startOf cwd p) p.parts

/-- What stands at a path, if something does. Whether there is something under a name that is too
long has no answer. -/
def find? (t : FileTree) (cwd : List String) (p : Path) : Except Fault (Option Node) :=
  match t.locate cwd p with
  | .ok (_, n) => .ok (some n)
  | .error .nameTooLong => .error .longName
  | .error _ => .ok none

def pathExists (t : FileTree) (cwd : List String) (p : Path) : Except Fault Bool :=
  (t.find? cwd p).map Option.isSome

def isFile (t : FileTree) (cwd : List String) (p : Path) : Except Fault Bool :=
  (t.find? cwd p).map (·.any Node.isFile)

def isDir (t : FileTree) (cwd : List String) (p : Path) : Except Fault Bool :=
  (t.find? cwd p).map (·.any Node.isDir)

def read (t : FileTree) (cwd : List String) (p : Path) : Except FileError Bytes :=
  match t.locate cwd p with
  | .ok (_, .file content) => .ok content
  | .ok _ => .error .isDirectory
  | .error e => .error e

end FileTree

end ImportGroups
