import ImportGroups.Text.Quoted
import ImportGroups.Text.Digit

/-!
Options of the command line.

Every word is an option, the mark for the end of options, or a plain word. A long option may be cut
short as long as one option only starts like that, and a value may follow its option after an equals
sign. The letters behind a short option are short options, too; the first one that is none is
refused with all that follows it. The first run of plain words holds the paths to check.
-/

namespace ImportGroups.CommandLine

inductive Flag where
  | help
  | version
  | root
  | config
  | vendor
  | exclude
  | noGitignore
  | json
  | debug
  deriving DecidableEq, Repr

def flagNames : List (String × Flag) := [
  ("-h", .help), ("--help", .help), ("-v", .version), ("--version", .version), ("--root", .root),
  ("--config", .config), ("--vendor", .vendor), ("--exclude", .exclude),
  ("--no-gitignore", .noGitignore), ("--json", .json), ("-d", .debug), ("--debug", .debug)]

namespace Flag

def takesValue : Flag → Bool
  | root | config | vendor | exclude => true
  | _ => false

def title (f : Flag) : String :=
  "/".intercalate ((flagNames.filter (·.2 == f)).map (·.1))

end Flag

inductive UsageError where
  | ambiguous (word : String) (names : List String)
  | expectedValue (f : Flag)
  | ignoredValue (f : Flag) (value : String)
  | unrecognized (words : List String)
  deriving DecidableEq, Repr

def UsageError.message : UsageError → String
  | ambiguous word names =>
    "ambiguous option: " ++ word ++ " could match " ++ ", ".intercalate names
  | expectedValue f => "argument " ++ f.title ++ ": expected one argument"
  | ignoredValue f value =>
    "argument " ++ f.title ++ ": ignored explicit argument " ++ Text.quote value
  | unrecognized words => "unrecognized arguments: " ++ " ".intercalate words

inductive WordKind where
  | plain
  /-- The mark after which all words are plain. -/
  | endOfOptions
  | unknownOption
  /-- An option, by the name that was meant, with the value written together with it. -/
  | option (f : Flag) (short : Bool) (value : Option String)
  deriving DecidableEq, Repr

structure Word where
  text : String
  kind : WordKind
  deriving DecidableEq, Repr

def isLongName (name : String) : Bool := "--".toList.isPrefixOf name.toList

/-- The text before the first equals sign and the text after it. -/
def splitValue? (cs : List Char) : Option (List Char × String) :=
  match cs.dropWhile (· != '=') with
  | [] => none
  | _ :: value => some (cs.takeWhile (· != '='), .ofList value)

/-- A minus sign, digits, and perhaps a point among or before them. A line feed may follow. -/
def isNegativeNumber (cs : List Char) : Bool :=
  match cs with
  | '-' :: rest =>
    let number := if rest.getLast? == some '\n' then rest.dropLast else rest
    match number.dropWhile Text.isDecimalDigit with
    | [] => !number.isEmpty
    | '.' :: fraction => !fraction.isEmpty && fraction.all Text.isDecimalDigit
    | _ => false
  | _ => false

def candidates (cs : List Char) : List (String × Flag × Option String) :=
  match cs with
  | '-' :: '-' :: _ =>
    let (start, value) := match splitValue? cs with
      | some (start, value) => (start, some value)
      | none => (cs, none)
    (flagNames.filter fun (name, _) => start.isPrefixOf name.toList).map
      fun (name, f) => (name, f, value)
  | '-' :: c :: rest =>
    (flagNames.filter fun (name, _) => name == .ofList ['-', c]).map
      fun (name, f) => (name, f, some (.ofList rest))
  | _ => []

/-- A word that starts like an option but is none that is known. -/
def strangeKind (cs : List Char) : WordKind :=
  if isNegativeNumber cs || cs.contains ' ' then .plain else .unknownOption

def optionOf (name : String) (f : Flag) (value : Option String) : WordKind :=
  .option f (!isLongName name) value

/-- The option with exactly this name before an equals sign. -/
def exactWithValue? (cs : List Char) : Option WordKind := do
  let (name, value) ← splitValue? cs
  let f ← flagNames.lookup (.ofList name)
  return optionOf (.ofList name) f (some value)

def wordKind (text : String) : Except UsageError WordKind :=
  let cs := text.toList
  match flagNames.lookup text, cs with
  | some f, _ => .ok (optionOf text f none)
  | none, '-' :: _ :: _ =>
    match exactWithValue? cs, candidates cs with
    | some kind, _ => .ok kind
    | none, [] => .ok (strangeKind cs)
    | none, [(name, f, value)] => .ok (optionOf name f value)
    | none, several => .error (.ambiguous text (several.map (·.1)))
  | none, _ => .ok .plain

def words : List String → Except UsageError (List Word)
  | [] => .ok []
  | "--" :: rest => .ok (⟨"--", .endOfOptions⟩ :: rest.map fun w => ⟨w, .plain⟩)
  | w :: rest => do
    let kind ← wordKind w
    return ⟨w, kind⟩ :: (← words rest)

structure Settings where
  root : Option String := none
  config : Option String := none
  vendor : Option String := none
  exclude : List String := []
  noGitignore : Bool := false
  json : Bool := false
  debug : Bool := false
  deriving DecidableEq, Repr

inductive Request where
  | help
  | version
  | check (s : Settings) (paths : List String)
  deriving DecidableEq, Repr

/-- How far the paths are read: not begun, inside their run, or past it. -/
inductive PathPhase where
  | ahead
  | inside
  | past
  deriving DecidableEq, Repr

structure Reading where
  settings : Settings := {}
  phase : PathPhase := .ahead
  paths : List String := []
  extra : List String := []

namespace Reading

def plain (r : Reading) (w : String) : Reading :=
  match r.phase with
  | .past => { r with extra := r.extra ++ [w] }
  | _ => { r with phase := .inside, paths := r.paths ++ [w] }

def leavePaths (r : Reading) : Reading :=
  if r.phase = .inside then { r with phase := .past } else r

def setValue (r : Reading) (f : Flag) (value : String) : Reading :=
  let s := r.settings
  { r with settings :=
      match f with
      | .root => { s with root := some value }
      | .config => { s with config := some value }
      | .vendor => { s with vendor := some value }
      | .exclude => { s with exclude := s.exclude ++ [value] }
      | _ => s }

/-- Sets an option without a value; help and version end the reading. -/
def setFlag (r : Reading) (f : Flag) : Except Request Reading :=
  let s := r.settings
  match f with
  | .help => .error .help
  | .version => .error .version
  | .noGitignore => .ok { r with settings := { s with noGitignore := true } }
  | .json => .ok { r with settings := { s with json := true } }
  | .debug => .ok { r with settings := { s with debug := true } }
  | _ => .ok r

def setFlags (r : Reading) : List Flag → Except Request Reading
  | [] => .ok r
  | f :: fs => do setFlags (← r.setFlag f) fs

/-- The request at the end of the words. One mark for the end of options among the paths is
dropped. -/
def request (r : Reading) : Except UsageError Request :=
  if r.extra.isEmpty then
    let paths := r.paths.erase "--"
    .ok (.check r.settings (if paths.isEmpty then ["."] else paths))
  else .error (.unrecognized r.extra)

end Reading

def cluster (f : Flag) : List Char → Except UsageError (List Flag)
  | [] => .ok [f]
  | c :: cs =>
    match flagNames.lookup (.ofList ['-', c]) with
    | some g => (cluster g cs).map (f :: ·)
    | none => .error (.ignoredValue f (.ofList (c :: cs)))

def flagsOf (f : Flag) (short : Bool) : Option String → Except UsageError (List Flag)
  | none => .ok [f]
  | some text =>
    if short && text != "" then cluster f text.toList else .error (.ignoredValue f text)

def readWords (r : Reading) : List Word → Except UsageError Request
  | [] => r.request
  | ⟨text, kind⟩ :: rest =>
    match kind with
    | .plain | .endOfOptions => readWords (r.plain text) rest
    | .unknownOption => readWords { r.leavePaths with extra := r.extra ++ [text] } rest
    | .option f short value =>
      if f.takesValue then
        match value with
        | some v => readWords (r.leavePaths.setValue f v) rest
        | none =>
          match rest with
          | ⟨v, .plain⟩ :: rest => readWords (r.leavePaths.setValue f v) rest
          | _ => .error (.expectedValue f)
      else
        match flagsOf f short value with
        | .error e => .error e
        | .ok fs =>
          match r.leavePaths.setFlags fs with
          | .ok r => readWords r rest
          | .error request => .ok request

/-- What the words of a command line ask for. -/
def parse (args : List String) : Except UsageError Request := do
  readWords {} (← words args)

end ImportGroups.CommandLine
