import ImportGroups.Violation
import ImportGroups.Path
import ImportGroups.Text.Json

/-!
Verdicts on files and what is reported of them.

A run fails when one of its files does. The lines and the report name the failing files in order.
-/

namespace ImportGroups

/-- What a check says about one file. The imports of a file with an error were not looked at. -/
structure Verdict where
  path : Path
  violation : Option Violation := none
  error : Option String := none
  deriving DecidableEq, Repr

namespace Verdict

def ok (v : Verdict) : Bool := v.violation.isNone && v.error.isNone

/-- The name of what is wrong. An error hides a violation. -/
def kind? (v : Verdict) : Option String :=
  match v.error with
  | some _ => some "extraction_error"
  | none => v.violation.map Violation.kind

def message (v : Verdict) : String :=
  match v.error, v.violation with
  | some e, _ => e
  | none, some violation => violation.message
  | none, none => ""

def line (v : Verdict) : String := v.path.toString ++ ": " ++ v.message

end Verdict

def failing (verdicts : List Verdict) : List Verdict := verdicts.filter (!·.ok)

def reportLines (verdicts : List Verdict) : List String := (failing verdicts).map Verdict.line

def exitStatus (verdicts : List Verdict) : Nat := if verdicts.all Verdict.ok then 0 else 1

structure FailureEntry where
  path : String
  kind : String
  message : String
  deriving DecidableEq, Repr

structure Report where
  rootPackage : String
  filesChecked : Nat
  failures : List FailureEntry
  deriving DecidableEq, Repr

namespace Report

def entry? (v : Verdict) : Option FailureEntry :=
  v.kind?.map fun kind => { path := v.path.toString, kind, message := v.message }

def ofVerdicts (root : String) (verdicts : List Verdict) : Report where
  rootPackage := root
  filesChecked := verdicts.length
  failures := verdicts.filterMap entry?

def ok (r : Report) : Bool := r.failures.isEmpty

def toJson (r : Report) : Text.Json :=
  .object [
    ("rootPackage", .str r.rootPackage),
    ("filesChecked", .num r.filesChecked),
    ("failures", .list (r.failures.map fun f =>
      .object [("path", .str f.path), ("kind", .str f.kind), ("message", .str f.message)]))]

def toText (r : Report) : String := r.toJson.toText

end Report

end ImportGroups
