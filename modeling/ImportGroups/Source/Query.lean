import ImportGroups.Source.Outline

/-!
Named questions about a Go source: its package clauses, its import declarations, its import specs.

The answer is a list of captures, the parts of the source that were asked for. Unlike the imports
of a file, it covers the whole source, and a fault does not spoil it.
-/

namespace ImportGroups.Source

inductive Query where
  | packageClauses
  | importDeclarations
  | importSpecs
  deriving DecidableEq, Repr

/-- A part of a source between two byte offsets, under the name it was asked for by. -/
structure Capture where
  start : Nat
  stop : Nat
  name : String
  deriving DecidableEq, Repr

namespace Query

def all : List Query := [.packageClauses, .importDeclarations, .importSpecs]

def name : Query → String
  | packageClauses => "package"
  | importDeclarations => "import_declarations"
  | importSpecs => "imports"

def ofName? (s : String) : Option Query := all.find? (·.name == s)

def capturesAt : Query → Event → List Capture
  | packageClauses, .packageClause start stop => [⟨start.offset, stop.offset, "package"⟩]
  | importDeclarations, .importDeclaration start stop => [⟨start.offset, stop.offset, "import"⟩]
  | importSpecs, .importSpec start path stop _ =>
    [⟨start.offset, stop.offset, "import_spec"⟩, ⟨path.offset, stop.offset, "import_path"⟩]
  | _, _ => []

end Query

/-- Captures in the order of their starts, then of their ends, then of their names. -/
def Capture.le (a b : Capture) : Bool :=
  if a.start != b.start then a.start < b.start
  else if a.stop != b.stop then a.stop < b.stop
  else !(b.name < a.name)

def Outline.captures (o : Outline) (q : Query) : List Capture :=
  (o.events.flatMap q.capturesAt).mergeSort Capture.le

def Outline.answer? (o : Outline) (name : String) : Option (List Capture) :=
  (Query.ofName? name).map o.captures

def unknownQueryMessage (name : String) : String := "Unknown query: " ++ name

end ImportGroups.Source
