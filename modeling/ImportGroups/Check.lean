import ImportGroups.ConfigFile
import ImportGroups.RootPackage
import ImportGroups.Report
import ImportGroups.Source.Imports
import ImportGroups.Walk

/-!
Checking files.

A run looks at every Go file below its start paths, in the order of the walk. A file that cannot be
opened or read gets a verdict of its own, and the run goes on. It breaks off where directories are
nested too deeply.
-/

namespace ImportGroups

open Text (Bytes)

/-- Why a file's imports are not known. -/
inductive ExtractionError where
  | unreadable (p : Path) (e : FileError)
  | source (e : SourceError)
  deriving DecidableEq, Repr

def ExtractionError.message : ExtractionError → String
  | unreadable p e => "failed to open file: " ++ e.message p
  | source e => e.message

def missingStart (p : Path) : Verdict where
  path := p
  error := some "failed to open file: no such file or directory"

namespace FileTree

def readSource (t : FileTree) (cwd : List String) (p : Path) :
    Except (Abort ExtractionError) Bytes :=
  if p.hasNul then .error (.fault .nulInPath)
  else (t.read cwd p).mapError fun e => .refused (.unreadable p e)

def importsOf (t : FileTree) (cwd : List String) (p : Path) :
    Except ExtractionError (List Record) := do
  (sourceImports (← (t.read cwd p).mapError (.unreadable p))).mapError .source

def verdictOn (t : FileTree) (cwd : List String) (root : String) (p : Path) : Verdict :=
  match t.importsOf cwd p with
  | .ok records => { path := p, violation := analyze root records }
  | .error e => { path := p, error := some e.message }

def checkFile (t : FileTree) (cwd : List String) (root : String) (p : Path) :
    Except Fault Verdict :=
  if p.hasNul then .error .nulInPath else .ok (t.verdictOn cwd root p)

end FileTree

def ignoredBy (ignore exclude : Option PatternSpec) (path : String) : Bool :=
  ignore.any (·.ignores path) || exclude.any (·.ignores path)

def excludeSpec? : List String → Except PatternError (Option PatternSpec)
  | [] => .ok none
  | patterns => (PatternSpec.ofLines patterns).map some

namespace FileTree

/-- What a walk from `start` leaves out under a configuration. -/
def walkRules (t : FileTree) (cwd : List String) (config : Config) (start : Path) :
    Except Fault WalkRules := do
  let hasIgnore ← if config.gitignore then t.isDir cwd start else .ok false
  let ignore ← if hasIgnore then t.ignoreSpec? cwd start else .ok none
  let exclude ← (excludeSpec? config.exclude).mapError .badPattern
  return { vendor := config.vendor, ignored := ignoredBy ignore exclude }

def visitsUnder (t : FileTree) (cwd : List String) (config : Config) (start : Path) :
    Except Fault (List Visit) := do
  t.visits cwd start (← t.walkRules cwd config start)

/-- The Go files below `start` that a run looks at. -/
def collect (t : FileTree) (cwd : List String) (config : Config) (start : Path) :
    Except Fault (List Path) :=
  (t.visitsUnder cwd config start).map fun vs => vs.filterMap Visit.file?

end FileTree

inductive Step where
  | missing (start : Path)
  | visit (v : Visit)
  deriving DecidableEq, Repr

namespace FileTree

def stepVerdict? (t : FileTree) (cwd : List String) (root : String) : Step → Option Verdict
  | .missing p => some (missingStart p)
  | .visit v => v.file?.map (t.verdictOn cwd root)

/-- The walk from `start` goes down further than a run can. -/
def isTooDeep (t : FileTree) (cwd : List String) (config : Config) (start : Path) : Bool :=
  match t.walkRules cwd config start, t.locate cwd start with
  | .ok rules, .ok (here, n) => maxDepth < t.depth rules (.top here start) n
  | _, _ => false

def stepsFrom (t : FileTree) (cwd : List String) (config : Config) (start : Path) :
    Except Fault (List Step) := do
  if ← t.pathExists cwd start then
    let visits ← t.visitsUnder cwd config start
    if t.isTooDeep cwd config start then .error .tooDeep else .ok (visits.map .visit)
  else return [.missing start]

def steps (t : FileTree) (cwd : List String) (config : Config) :
    List Path → List Step × Option Fault
  | [] => ([], none)
  | start :: rest =>
    match t.stepsFrom cwd config start with
    | .error f => ([], some f)
    | .ok ss =>
      let (more, f?) := t.steps cwd config rest
      (ss ++ more, f?)

def runCheck (t : FileTree) (cwd : List String) (root : String) (config : Config)
    (starts : List Path) : Except Fault (List Verdict) :=
  match t.steps cwd config starts with
  | (_, some f) => .error f
  | (ss, none) => .ok (ss.filterMap (t.stepVerdict? cwd root))

end FileTree

end ImportGroups
