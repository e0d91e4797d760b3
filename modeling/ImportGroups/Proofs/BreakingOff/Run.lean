import ImportGroups.Proofs.BreakingOff.Starts
import ImportGroups.Proofs.ExitStatus

/-!
Where a run breaks off.

A run ends with a status, and with a message if it is refused, unless its setup or a start path breaks
it off.
-/

namespace ImportGroups

open Yaml (Reader)

namespace CommandLine

variable {t : FileTree} {cwd : List String} {env : Environment} {reader : Reader}
  {args paths : List String} {s : Settings} {config : Config} {f : Fault}

theorem locate_in_empty {p : Path} {name : String} (hparts : p.parts = [name])
    (hnul : p.hasNul = false) (hsize : p.toString.utf8ByteSize ≤ FileTree.maxPathSize)
    (hname : name ≠ "." ∧ name ≠ ".." ∧ name.utf8ByteSize ≤ FileTree.maxNameSize) :
    FileTree.locate {} [] p = .error .notFound := by
  have hstart : FileTree.startOf [] p = [] := by
    unfold FileTree.startOf
    split_ifs <;> rfl
  rw [FileTree.locate, if_neg (by simp [hnul]), if_neg (by omega), hstart, hparts,
    FileTree.locateFrom, if_neg (by simpa using hname.1), if_neg (by simpa using hname.2.1),
    if_neg (by omega)]
  rfl

end CommandLine

end ImportGroups
