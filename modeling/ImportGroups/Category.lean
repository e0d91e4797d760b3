import ImportGroups.Text.Quoted

/-!
Categories of imports.

A Go import path without a dot belongs to the standard library. A path with a dot is internal when
it starts with the project's own root package, and external otherwise. A group of imports has the
category its members share; it is mixed when they differ and unknown when it is empty.
-/

namespace ImportGroups

inductive Category where
  | external
  | internal
  | mixed
  | stdlib
  | unknown
  deriving DecidableEq, Repr

namespace Category

def all : List Category := [.external, .internal, .mixed, .stdlib, .unknown]

def name : Category → String
  | external => "external"
  | internal => "internal"
  | mixed => "mixed"
  | stdlib => "stdlib"
  | unknown => "unknown"

def ofName? (s : String) : Option Category :=
  all.find? (·.name == s)

end Category

/-- The category of an import path, against the project's own root package. -/
def classify (root path : String) : Category :=
  if path.toList.contains '.' then
    if root.toList.isPrefixOf path.toList then .internal else .external
  else .stdlib

/-- How the classification against a root package is shown. -/
def classifierText (root : String) : String :=
  "PathClassifier(own_root=" ++ Text.quote root ++ ")"

structure CategorySet where
  external : Bool := false
  internal : Bool := false
  mixed : Bool := false
  stdlib : Bool := false
  unknown : Bool := false
  deriving DecidableEq, Repr

namespace CategorySet

def contains (s : CategorySet) : Category → Bool
  | .external => s.external
  | .internal => s.internal
  | .mixed => s.mixed
  | .stdlib => s.stdlib
  | .unknown => s.unknown

def ofList (cs : List Category) : CategorySet where
  external := cs.contains .external
  internal := cs.contains .internal
  mixed := cs.contains .mixed
  stdlib := cs.contains .stdlib
  unknown := cs.contains .unknown

def toList (s : CategorySet) : List Category :=
  Category.all.filter s.contains

end CategorySet

end ImportGroups
