import ImportGroups.Config
import ImportGroups.Text.Lines
import ImportGroups.Yaml.Reader

/-!
Reading the configuration file.

The reader of YAML keeps some things from one text to the next, so a load takes the reader before it
and gives the reader after it.
-/

namespace ImportGroups

open Yaml (Value Reader)

/-- The mapping in a text; a document that counts as nothing is an empty mapping. -/
def mappingOf (p : Path) : Except Yaml.LoadError Value → ConfigResult (List (Value × Value))
  | .error .invalid => refuse (.invalidYaml p)
  | .error e => .error (.fault (.badText e))
  | .ok v =>
    if v.isFalsy then .ok []
    else
      match v with
      | .map pairs => .ok pairs
      | _ => refuse (.notMapping p)

namespace FileTree

def readConfig (t : FileTree) (cwd : List String) (reader : Reader) (p : Path) :
    ConfigResult Config × Reader :=
  match t.read cwd p with
  | .error e => (refuse (.unreadable p e), reader)
  | .ok bytes =>
    match Text.decodeUtf8? bytes with
    | none => (.error (.fault .notUtf8), reader)
    | some text =>
      let (value, reader) := reader.load (Text.unifyNewlines text.toList)
      (mappingOf p value >>= Config.ofMapping, reader)

/-- The file that a configuration is read from: the one asked for, which has to exist, or the one in
the working directory if it is there. -/
def configPath? (t : FileTree) (cwd : List String) : Option Path → ConfigResult (Option Path)
  | some p =>
    match t.isFile cwd p with
    | .error f => .error (.fault f)
    | .ok isFile => if isFile then .ok (some p) else refuse (.fileNotFound p)
  | none =>
    let p := (Path.absolute cwd).child configFileName
    match t.isFile cwd p with
    | .error f => .error (.fault f)
    | .ok isFile => .ok (if isFile then some p else none)

def loadConfig (t : FileTree) (cwd : List String) (reader : Reader) (explicit : Option Path) :
    ConfigResult Config × Reader :=
  match t.configPath? cwd explicit with
  | .error e => (.error e, reader)
  | .ok none => (.ok {}, reader)
  | .ok (some p) => t.readConfig cwd reader p

end FileTree

end ImportGroups
