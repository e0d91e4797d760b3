/-!
Tokens of a YAML text.
-/

namespace ImportGroups.Yaml

/-- The version of the language that a text is read by. -/
structure Version where
  major : Nat
  minor : Nat
  deriving DecidableEq, Repr

namespace Version

def v11 : Version := ⟨1, 1⟩

def v12 : Version := ⟨1, 2⟩

def isAfter11 (v : Version) : Bool := 1 < v.major || (v.major == 1 && 1 < v.minor)

end Version

inductive Directive where
  | version (v : Version)
  | tag (handle start : String)
  | other
  deriving DecidableEq, Repr

inductive Token where
  | directive (d : Directive)
  | documentStart
  | documentEnd
  | blockSequenceStart
  | blockMappingStart
  | blockEnd
  | flowSequenceStart
  | flowSequenceEnd
  | flowMappingStart
  | flowMappingEnd
  | blockEntry
  | flowEntry
  | key
  | value
  | reference (name : String)
  | anchor (name : String)
  | tag (handle : Option String) (suffix : String)
  | scalar (text : String) (plain : Bool)
  /-- The text is over. -/
  | streamEnd
  deriving DecidableEq, Repr

end ImportGroups.Yaml
