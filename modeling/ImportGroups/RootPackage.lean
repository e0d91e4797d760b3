import ImportGroups.Fault
import ImportGroups.FileTree.Resolve
import ImportGroups.Text.Lines

/-!
The own root package.

It is what the user asks for, or the two top components of the working directory's place below the
sources of a GOPATH entry, or the two top segments of the module path in the nearest `go.mod`.
-/

namespace ImportGroups

def goModName : String := "go.mod"

/-- How many segments of a path name its owner, such as a host and a user. -/
def rootDepth : Nat := 2

/-- The leading segments of an import path that name its owner. -/
def ownerPrefix (path : String) : String :=
  "/".intercalate ((Text.segments '/' path).take rootDepth)

inductive RootError where
  | emptyOverride
  | noGopath
  | outsideGopath
  | tooShallow
  deriving DecidableEq, Repr

def RootError.message : RootError → String
  | emptyOverride => "root package override is empty"
  | noGopath => "GOPATH is not set"
  | outsideGopath => "current directory is outside GOPATH"
  | tooShallow => "you need to be at least two level deep into GOPATH to check import grouping"

inductive RootOrigin where
  | requested
  | gopath
  | module (file : Path)
  deriving DecidableEq, Repr

structure RootPackage where
  name : String
  origin : RootOrigin
  deriving DecidableEq, Repr

def below? : List String → List String → Option (List String)
  | [], place => some place
  | t :: top, p :: place => if t == p then below? top place else none
  | _ :: _, [] => none

def gopathEntries (gopath : String) : List String := Text.segments ':' gopath

/-- The module path that a line declares: `none` for another line, `some none` for an empty path. -/
def modulePathOfLine? (line : List Char) : Option (Option String) :=
  let line := Text.trimWhile Text.isBlank (beforeComment line)
  if "module ".toList.isPrefixOf line then
    let value := Text.trimWhile Text.isBlank (line.drop "module ".length)
    let path := Text.trimWhile (· == '`') (Text.trimWhile (· == '"') value)
    some (if path.isEmpty then none else some (.ofList path))
  else none
where
  beforeComment : List Char → List Char
    | [] => []
    | '/' :: '/' :: _ => []
    | c :: cs => c :: beforeComment cs

/-- The module path of the text of a `go.mod` file: that of the first line which declares one. -/
def modulePath? (text : String) : Option String :=
  ((Text.lines (Text.unifyNewlines text.toList)).findSome? modulePathOfLine?).join

namespace FileTree

/-- The root package of `dir` below one of the GOPATH entries. The first entry that holds it
decides. -/
def rootFromGopath (t : FileTree) (cwd : List String) (dir : Path) (gopath : String) :
    Except (Abort RootError) String :=
  match gopathEntries gopath with
  | [] => .error (.refused .noGopath)
  | entries =>
    match t.resolve cwd dir with
    | .error f => .error (.fault f)
    | .ok place => go place entries
where
  go (place : List String) : List String → Except (Abort RootError) String
    | [] => .error (.refused .outsideGopath)
    | entry :: rest =>
      match t.resolve cwd (Path.ofString entry) with
      | .error f => .error (.fault f)
      | .ok top =>
        match below? (top ++ ["src"]) place with
        | none => go place rest
        | some parts =>
          if parts.length < rootDepth then .error (.refused .tooShallow)
          else .ok ("/".intercalate (parts.take rootDepth))

/-- The nearest `go.mod` file in a directory or above it; the directory is given from the inside
out. -/
def goModAbove? (t : FileTree) : List String → Except Fault (Option Path)
  | [] => candidate []
  | name :: above => do
    match ← candidate (name :: above) with
    | some p => return some p
    | none => goModAbove? t above
where
  candidate (insideOut : List String) : Except Fault (Option Path) := do
    let p := (Path.absolute insideOut.reverse).child goModName
    return if ← t.isFile [] p then some p else none

def findGoMod (t : FileTree) (cwd : List String) (dir : Path) : Except Fault (Option Path) := do
  t.goModAbove? (← t.resolve cwd dir).reverse

/-- The module path of a `go.mod` file. A file that cannot be opened is refused. -/
def readModulePath (t : FileTree) (cwd : List String) (p : Path) :
    Except (Abort FileError) (Option String) :=
  if p.hasNul then .error (.fault .nulInPath)
  else
    match t.read cwd p with
    | .error e => .error (.refused e)
    | .ok bytes =>
      match Text.decodeUtf8? bytes with
      | none => .error (.fault .notUtf8)
      | some text => .ok (modulePath? text)

/-- The root package from the nearest `go.mod`; `e` if there is none or it names no module. -/
def rootFromModule (t : FileTree) (cwd : List String) (dir : Path) (e : RootError) :
    Except (Abort RootError) RootPackage :=
  match t.findGoMod cwd dir with
  | .error f => .error (.fault f)
  | .ok none => .error (.refused e)
  | .ok (some p) =>
    match t.readModulePath cwd p with
    | .error (.fault f) => .error (.fault f)
    | .error (.refused _) | .ok none => .error (.refused e)
    | .ok (some path) => .ok ⟨ownerPrefix path, .module p⟩

/-- The root package for the working directory `dir`. Outside GOPATH the module decides; too close
to its sources nothing does. -/
def resolveRoot (t : FileTree) (cwd : List String) (dir : Path) (gopath : String)
    (requested : Option String) : Except (Abort RootError) RootPackage :=
  match requested with
  | some s =>
    let name := Text.trimChar '/' (Text.trimBlank s)
    if name == "" then .error (.refused .emptyOverride) else .ok ⟨name, .requested⟩
  | none =>
    match t.rootFromGopath cwd dir gopath with
    | .ok name => .ok ⟨name, .gopath⟩
    | .error (.refused .tooShallow) => .error (.refused .tooShallow)
    | .error (.refused e) => t.rootFromModule cwd dir e
    | .error (.fault f) => .error (.fault f)

end FileTree

end ImportGroups
