import ImportGroups.Text.Split

/-!
Paths of files.

A path is absolute or relative and has components that are neither empty nor a single dot; two dots
stay as they are, since what they mean depends on links. A path that starts with exactly two slashes
keeps both. The relative path without components is written as a dot.
-/

namespace ImportGroups

inductive Anchor where
  | relative
  | root
  | doubleRoot
  deriving DecidableEq, Repr

namespace Anchor

def ofSlashes : Nat → Anchor
  | 0 => relative
  | 2 => doubleRoot
  | _ => root

def text : Anchor → String
  | relative => ""
  | root => "/"
  | doubleRoot => "//"

end Anchor

structure Path where
  anchor : Anchor := .relative
  parts : List String := []
  deriving DecidableEq, Repr

namespace Path

def ofString (s : String) : Path where
  anchor := .ofSlashes (s.toList.takeWhile (· == '/')).length
  parts := (Text.segments '/' s).filter (· != ".")

def toString (p : Path) : String :=
  match p.anchor, p.parts with
  | .relative, [] => "."
  | anchor, parts => anchor.text ++ "/".intercalate parts

instance : ToString Path := ⟨toString⟩

def isAbsolute (p : Path) : Bool := p.anchor != .relative

/-- A component has a NUL, which no name in a file system has. -/
def hasNul (p : Path) : Bool := p.parts.any (·.toList.contains '\x00')

/-- How many bytes stand before the slash that comes before the name of an entry. -/
def baseSize (p : Path) : Nat :=
  if p.isAbsolute && p.parts.isEmpty then p.toString.utf8ByteSize - 1 else p.toString.utf8ByteSize

def join (p q : Path) : Path :=
  if q.isAbsolute then q else ⟨p.anchor, p.parts ++ q.parts⟩

def child (p : Path) (name : String) : Path := p.join (ofString name)

def absolute (parts : List String) : Path := ⟨.root, parts⟩

end Path

end ImportGroups
