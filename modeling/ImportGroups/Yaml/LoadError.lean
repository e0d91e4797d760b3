/-!
Why a YAML text has no value.
-/

namespace ImportGroups.Yaml

inductive LoadError where
  /-- The text is not one well-formed document. -/
  | invalid
  /-- A document asks for a version other than 1.1 and 1.2. -/
  | refusedVersion
  /-- A version other than 1.1 and 1.2 has no rules for plain scalars. -/
  | unknownVersion
  /-- A number, a date or a code point is out of its range, or is none. -/
  | malformedNumber
  /-- A code point is half of a surrogate pair. No text can hold it, so the scalar has no value. -/
  | halfPair
  /-- A number has no characters. -/
  | emptyNumber
  /-- A number or a moment is too large to be represented. -/
  | overflow
  /-- A scalar marked as a boolean is none. -/
  | malformedBoolean
  /-- A key holds a collection. -/
  | collectionInKey
  /-- An ordered mapping has a key twice. -/
  | repeatedKey
  /-- The collections are nested too deeply. -/
  | tooDeep
  deriving DecidableEq, Repr

end ImportGroups.Yaml
