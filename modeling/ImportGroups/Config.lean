import ImportGroups.Fault
import ImportGroups.FileTree.Basic
import ImportGroups.Yaml.Value

/-!
Configuration of a run.

`Config.ofMapping` accepts a mapping with the four known keys and values of the right kinds;
`Config.override` puts command line options on top of a configuration.
-/

namespace ImportGroups

open Yaml (Value)

def configFileName : String := ".go3mports.yaml"

structure Config where
  /-- The own root package, if it is not to be looked up. -/
  root : Option String := none
  /-- The directory at the top with vendored dependencies. -/
  vendor : String := "vendor"
  /-- Patterns of files to leave out. -/
  exclude : List String := []
  /-- The ignore file of a checked directory counts. -/
  gitignore : Bool := true
  deriving DecidableEq, Repr

/-- Why a configuration is refused. -/
inductive ConfigError where
  | unknownKeys (keys : List String)
  | rootNotString
  | vendorNotName
  | excludeNotPatterns
  | gitignoreNotBool
  | emptyVendorOption
  | fileNotFound (p : Path)
  | invalidYaml (p : Path)
  | unreadable (p : Path) (e : FileError)
  | notMapping (p : Path)
  deriving DecidableEq, Repr

def ConfigError.message : ConfigError → String
  | unknownKeys keys => configFileName ++ ": unknown key(s): " ++ ", ".intercalate keys
  | rootNotString => configFileName ++ ": root: expected a string"
  | vendorNotName => configFileName ++ ": vendor: expected a non-empty string"
  | excludeNotPatterns => configFileName ++ ": exclude: expected a list of patterns"
  | gitignoreNotBool => configFileName ++ ": gitignore: expected true or false"
  | emptyVendorOption => "--vendor: expected a non-empty directory name"
  | fileNotFound p => "Config file not found: " ++ p.toString
  | invalidYaml p => p.toString ++ ": invalid YAML"
  | unreadable p e => p.toString ++ ": " ++ e.message p
  | notMapping p => "YAML must be a mapping: " ++ p.toString

abbrev ConfigResult := Except (Abort ConfigError)

def refuse (e : ConfigError) : ConfigResult α := .error (.refused e)

def valueOf? (name : String) : List (Value × Value) → Option Value
  | [] => none
  | (.str k, x) :: rest => if k == name then some x else valueOf? name rest
  | _ :: rest => valueOf? name rest

def knownKeys : List String := ["root", "vendor", "exclude", "gitignore"]

def isKnownKey : Value → Bool
  | .str k => knownKeys.contains k
  | _ => false

def haveOrder : List Value → Bool
  | [] => true
  | x :: xs => xs.all (fun y => (x.compare? y).isSome) && haveOrder xs

/-- Keys that are not known are refused, by their names in order. -/
def checkKeys (keys : List Value) : ConfigResult Unit :=
  match keys.filter (!isKnownKey ·) with
  | [] => .ok ()
  | unknown =>
    if !haveOrder unknown then .error (.fault .unorderedKeys)
    else if unknown.any Value.isTooLong then .error (.fault .longKey)
    else
      let sorted := unknown.mergeSort fun a b => a.compare? b != some .gt
      refuse (.unknownKeys (sorted.map Value.keyText))

def rootOf : Option Value → ConfigResult (Option String)
  | none | some .null => .ok none
  | some (.str s) => .ok (some s)
  | some _ => refuse .rootNotString

/-- The name without slashes around it; `none` if nothing is left. -/
def vendorName? (s : String) : Option String :=
  let name := Text.trimChar '/' s
  if name == "" then none else some name

def vendorOf : Option Value → ConfigResult String
  | none => .ok ({} : Config).vendor
  | some (.str s) =>
    match vendorName? s with
    | some name => .ok name
    | none => refuse .vendorNotName
  | some _ => refuse .vendorNotName

def stringOf? : Value → Option String
  | .str s => some s
  | _ => none

/-- A single pattern may stand without a list around it. -/
def excludeOf : Option Value → ConfigResult (List String)
  | none | some .null => .ok []
  | some (.str s) => if Text.isAllBlank s then refuse .excludeNotPatterns else .ok [s]
  | some (.seq items) =>
    match items.mapM stringOf? with
    | some patterns => .ok patterns
    | none => refuse .excludeNotPatterns
  | some _ => refuse .excludeNotPatterns

def gitignoreOf : Option Value → ConfigResult Bool
  | none => .ok true
  | some (.bool b) => .ok b
  | some _ => refuse .gitignoreNotBool

namespace Config

/-- The configuration that a mapping describes. Of several faults the first is reported: unknown
keys, then the keys in the order of the fields. -/
def ofMapping (pairs : List (Value × Value)) : ConfigResult Config := do
  checkKeys (pairs.map (·.1))
  let root ← rootOf (valueOf? "root" pairs)
  let vendor ← vendorOf (valueOf? "vendor" pairs)
  let exclude ← excludeOf (valueOf? "exclude" pairs)
  let gitignore ← gitignoreOf (valueOf? "gitignore" pairs)
  return { root, vendor, exclude, gitignore }

/-- Options of the command line that bear on the configuration. -/
structure Override where
  root : Option String := none
  vendor : Option String := none
  exclude : List String := []
  noGitignore : Bool := false
  deriving DecidableEq, Repr

/-- The configuration with the options on top. Patterns are added to those that are there. -/
def override (c : Config) (o : Override) : Except ConfigError Config :=
  let put (vendor : String) : Config := {
    root := o.root.or c.root
    vendor
    exclude := c.exclude ++ o.exclude
    gitignore := c.gitignore && !o.noGitignore }
  match o.vendor with
  | none => .ok (put c.vendor)
  | some s =>
    match vendorName? s with
    | some name => .ok (put name)
    | none => .error .emptyVendorOption

end Config

end ImportGroups
