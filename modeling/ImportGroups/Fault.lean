import ImportGroups.Pattern.Basic
import ImportGroups.Yaml.LoadError

/-!
Why an operation ends without a result.

A refusal has a message for the user. A fault is an input for which there is none: the run breaks
off.
-/

namespace ImportGroups

inductive Fault where
  /-- A pattern that is none. -/
  | badPattern (e : PatternError)
  /-- A text file that is not UTF-8. -/
  | notUtf8
  /-- Unknown keys of a configuration that have no order. -/
  | unorderedKeys
  /-- A configuration with a number that is too long to be shown. -/
  | longKey
  /-- A configuration that the reader of YAML gives up on. -/
  | badText (e : Yaml.LoadError)
  /-- A link that leads to itself. -/
  | linkLoop
  /-- A path with a NUL that is to be opened. -/
  | nulInPath
  /-- A path with a name that is too long, where it matters what stands there. -/
  | longName
  /-- A directory too far below the start of a walk. -/
  | tooDeep
  deriving DecidableEq, Repr

inductive Abort (ε : Type) where
  | refused (e : ε)
  | fault (f : Fault)
  deriving DecidableEq, Repr

end ImportGroups
