import ImportGroups.CommandLine.Options
import ImportGroups.Message

/-!
Runs of the command line.

A run reads the configuration, finds the root package, checks the files, and reports. It exits with
2 when its options or its configuration are refused, with 1 when the root package is not found or a
file fails, and with 0 otherwise.
-/

namespace ImportGroups.CommandLine

open Yaml (Reader)

def programName : String := "go3mports"

def programVersion : String := "0.1.0"

def usage : String :=
  "usage: go3mports [-h] [-v] [--root PREFIX] [--config FILE] [--vendor DIR]\n" ++
  "                 [--exclude PATTERN] [--no-gitignore] [--json] [-d]\n" ++
  "                 [paths ...]\n"

def helpText : String :=
  usage ++
  "\n" ++
  "Check that Go imports are split into stdlib, third-party and own groups\n" ++
  "\n" ++
  "positional arguments:\n" ++
  "  paths              files or directories to check (default: current\n" ++
  "                     directory)\n" ++
  "\n" ++
  "options:\n" ++
  "  -h, --help         show this help message and exit\n" ++
  "  -v, --version      show program's version number and exit\n" ++
  "  --root PREFIX      own root package, e.g. github.com/slomek (default:\n" ++
  "                     derived from GOPATH or go.mod)\n" ++
  "  --config FILE      configuration file (default: ./.go3mports.yaml if\n" ++
  "                     present)\n" ++
  "  --vendor DIR       top-level directory with vendored dependencies to skip\n" ++
  "                     (default: vendor)\n" ++
  "  --exclude PATTERN  gitignore-style pattern of paths to skip (can be given\n" ++
  "                     several times)\n" ++
  "  --no-gitignore     do not skip files ignored by .gitignore\n" ++
  "  --json             print a JSON report instead of one line per failing file\n" ++
  "  -d, --debug        debug logging to stderr\n"

/-- Variables of the environment that a run looks at; one that is not set is empty. -/
structure Environment where
  gopath : String := ""
  debug : String := ""
  deriving DecidableEq, Repr

/-- How a run ends: its exit status, unless a fault breaks it off, and what it writes. -/
structure Outcome where
  exit : Except Fault Nat
  out : String := ""
  err : String := ""

def unlines (ls : List String) : String := String.join (ls.map (· ++ "\n"))

def shown (debug : Bool) (ms : List Message) : String :=
  unlines ((ms.filter fun m => debug || m.isWarning).map Message.line)

def output (s : Settings) (root : String) (verdicts : List Verdict) : String :=
  if s.json then (Report.ofVerdicts root verdicts).toText ++ "\n"
  else unlines (reportLines verdicts)

/-- The check itself, once the configuration and the root package are known; `said` was written
before. -/
def checkWith (t : FileTree) (cwd : List String) (debug : Bool) (s : Settings) (paths : List String)
    (config : Config) (root : String) (said : String) : Outcome :=
  let (steps, f?) := t.steps cwd config (paths.map Path.ofString)
  let err := said ++ shown debug (steps.filterMap (t.stepMessage? cwd root))
  match f? with
  | some f => { exit := .error f, err }
  | none =>
    let verdicts := steps.filterMap (t.stepVerdict? cwd root)
    { exit := .ok (exitStatus verdicts), out := output s root verdicts, err }

def runWith (t : FileTree) (cwd : List String) (env : Environment) (debug : Bool) (s : Settings)
    (paths : List String) (config : Config) (said : String) : Outcome :=
  match t.resolveRoot cwd (Path.absolute cwd) env.gopath config.root with
  | .error (.fault f) => { exit := .error f, err := said }
  | .error (.refused e) =>
    { exit := .ok 1, err := said ++ "Failed to determine root package: " ++ e.message ++ "\n" }
  | .ok root =>
    checkWith t cwd debug s paths config root.name (said ++ shown debug [.rootFound root])

def Settings.configPath? (s : Settings) : Option Path :=
  match s.config with
  | none | some "" => none
  | some p => some (.ofString p)

def Settings.override (s : Settings) : Config.Override where
  root := s.root
  vendor := s.vendor
  exclude := s.exclude
  noGitignore := s.noGitignore

def effectiveConfig (t : FileTree) (cwd : List String) (reader : Reader) (s : Settings) :
    ConfigResult Config × Reader :=
  let (loaded, reader) := t.loadConfig cwd reader s.configPath?
  (loaded >>= fun config => (config.override s.override).mapError .refused, reader)

def runCheck (t : FileTree) (cwd : List String) (env : Environment) (reader : Reader)
    (s : Settings) (paths : List String) : Outcome × Reader :=
  let debug := s.debug || env.debug != ""
  let said := shown debug (t.configMessage? cwd s.configPath?).toList
  match effectiveConfig t cwd reader s with
  | (.error (.fault f), reader) => ({ exit := .error f, err := said }, reader)
  | (.error (.refused e), reader) =>
    ({ exit := .ok 2, err := said ++ Text.trimBlankEnd e.message ++ "\n" }, reader)
  | (.ok config, reader) => (runWith t cwd env debug s paths config said, reader)

/-- A run with the words of a command line. The readers are those of YAML before and after it. -/
def run (t : FileTree) (cwd : List String) (env : Environment) (reader : Reader)
    (args : List String) : Outcome × Reader :=
  match parse args with
  | .error e =>
    ({ exit := .ok 2, err := usage ++ programName ++ ": error: " ++ e.message ++ "\n" }, reader)
  | .ok .help => ({ exit := .ok 0, out := helpText }, reader)
  | .ok .version =>
    ({ exit := .ok 0, out := programName ++ " " ++ programVersion ++ "\n" }, reader)
  | .ok (.check s paths) => runCheck t cwd env reader s paths

end ImportGroups.CommandLine
