import ImportGroups.FileTree.Basic

/-!
Paths without links.

`resolve` follows all links of a path. Components that do not exist are kept, and two dots remove
the component before them. At a link that is met again while it is being followed the rest of the
path is taken by the letter; only if there is a link that leads to itself at the place that comes
out does the resolution fail.
-/

namespace ImportGroups

namespace Path

def up (p : Path) : Path :=
  match p.anchor, p.parts.getLast? with
  | .relative, none | .relative, some ".." => { p with parts := p.parts ++ [".."] }
  | _, _ => { p with parts := p.parts.dropLast }

/-- The path with further components as they are written. An empty one in front of others stands
for a slash, so they start from the root. -/
def followedBy (p : Path) (rest : List String) : Path :=
  let names := rest.filter fun name => name != "" && name != "."
  match rest with
  | "" :: _ :: _ => absolute names
  | _ => { p with parts := p.parts ++ names }

end Path

namespace Node

def linkCount : Node → Nat
  | file _ => 0
  | link _ => 1
  | dir entries => go entries
where
  go : List (String × Node) → Nat
    | [] => 0
    | (_, n) :: rest => n.linkCount + go rest

end Node

/-- How far links could be followed. -/
inductive Resolution where
  | reached (p : Path)
  /-- There is a link on the way that leads to itself. -/
  | looping (p : Path)
  /-- There is a NUL in a name. -/
  | unnameable
  deriving DecidableEq, Repr

/-- The links that were met, with what they lead to once it is known. -/
abbrev LinkNotes := List (Path × Option Path)

/-- The texts between the slashes of a link's target, also empty ones. -/
def namesIn (target : String) : List String :=
  (Text.splitAt '/' target.toList).map String.ofList

namespace FileTree

/-- The place of a path, two dots taken by the letter. -/
def placeOf (cwd : List String) (p : Path) : List String :=
  p.parts.foldl (fun place name => if name == ".." then place.dropLast else place ++ [name])
    (startOf cwd p)

/-- Follows the links of `rest` seen from `here`, which has none. Links nest at most `depth`
deep. -/
def resolveFrom (t : FileTree) (cwd : List String) (depth : Nat) (notes : LinkNotes)
    (here : Path) : List String → Resolution × LinkNotes
  | [] => (.reached here, notes)
  | name :: rest =>
    if name == "" || name == "." then resolveFrom t cwd depth notes here rest
    else if name == ".." then resolveFrom t cwd depth notes here.up rest
    else if name.toList.contains '\x00' then (.unnameable, notes)
    else
      let next : Path := { here with parts := here.parts ++ [name] }
      match t.nodeAt (placeOf cwd next) with
      | some (.link target) =>
        match notes.lookup next with
        | some (some p) => resolveFrom t cwd depth notes p rest
        | some none => (.looping (next.followedBy rest), notes)
        | none =>
          match depth with
          | 0 => (.looping (next.followedBy rest), notes)
          | inner + 1 =>
            let start := if (Path.ofString target).isAbsolute then Path.absolute [] else here
            match resolveFrom t cwd inner ((next, none) :: notes) start (namesIn target) with
            | (.reached p, notes) => resolveFrom t cwd (inner + 1) ((next, some p) :: notes) p rest
            | (.looping p, notes) => (.looping (p.followedBy rest), notes)
            | (.unnameable, notes) => (.unnameable, notes)
      | _ => resolveFrom t cwd depth notes next rest
termination_by rest => (depth, rest.length)

/-- How deep links can nest: a link is known by its path from the root or from one of the
directories above the working directory. -/
def linkDepth (t : FileTree) (cwd : List String) : Nat := t.root.linkCount * (cwd.length + 2)

def resolve (t : FileTree) (cwd : List String) (p : Path) : Except Fault (List String) :=
  let start : Path := if p.isAbsolute then .absolute [] else {}
  match (t.resolveFrom cwd (t.linkDepth cwd) [] start p.parts).1 with
  | .unnameable => .error .nulInPath
  | .reached q | .looping q =>
    let place := placeOf cwd q
    if (Path.absolute place).hasNul then .error .nulInPath
    else
      match t.locate [] (.absolute place) with
      | .error .tooManyLinks => .error .linkLoop
      | _ => .ok place

end FileTree

end ImportGroups
