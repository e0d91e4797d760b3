import ImportGroups.Check

/-!
Messages about the course of a run.
-/

namespace ImportGroups

inductive Message where
  | noConfigFile (dir : Path)
  | loadingConfig (p : Path)
  | rootFound (root : RootPackage)
  | unreadableModule (p : Path) (e : FileError)
  | skipped (what : String) (p : Path)
  | extractionFailed (p : Path) (e : ExtractionError)
  | checked (p : Path) (imports : Nat) (violation : Option Violation)
  deriving DecidableEq, Repr

namespace Message

def isWarning : Message → Bool
  | unreadableModule .. => true
  | _ => false

def text : Message → String
  | noConfigFile dir => "No " ++ configFileName ++ " in " ++ dir.toString ++ ", using defaults"
  | loadingConfig p => "Loading config from " ++ p.toString
  | rootFound root =>
    let source := match root.origin with
      | .requested => "override"
      | .gopath => "GOPATH"
      | .module file => file.toString
    "Root package from " ++ source ++ ": " ++ root.name
  | unreadableModule p e => "Failed to read " ++ p.toString ++ ": " ++ e.message p
  | skipped what p => "Skipping " ++ what ++ ": " ++ p.toString
  | extractionFailed p e => p.toString ++ ": extraction failed: " ++ e.message
  | checked p imports violation =>
    p.toString ++ ": " ++ toString imports ++ " imports, verdict: " ++
      (violation.map Violation.message).getD "ok"

def line (m : Message) : String :=
  "[" ++ (if m.isWarning then "WARNING" else "DEBUG") ++ "] " ++ m.text

end Message

namespace FileTree

/-- What is said about the choice of the configuration file. -/
def configMessage? (t : FileTree) (cwd : List String) (explicit : Option Path) : Option Message :=
  match t.configPath? cwd explicit with
  | .error _ => none
  | .ok none => some (.noConfigFile (Path.absolute cwd))
  | .ok (some p) => some (.loadingConfig p)

def checkMessage (t : FileTree) (cwd : List String) (root : String) (p : Path) : Message :=
  match t.importsOf cwd p with
  | .ok records => .checked p records.length (analyze root records)
  | .error e => .extractionFailed p e

def stepMessage? (t : FileTree) (cwd : List String) (root : String) : Step → Option Message
  | .missing _ => none
  | .visit (.goFile p) => some (t.checkMessage cwd root p)
  | .visit (.skippedVendor p) => some (.skipped "vendor directory" p)
  | .visit (.skippedDirectory p) => some (.skipped "ignored directory" p)
  | .visit (.skippedFile p) => some (.skipped "ignored file" p)

end FileTree

end ImportGroups
