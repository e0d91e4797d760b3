import ImportGroups.Proofs.BadPatterns
import ImportGroups.Proofs.BreakingOff.Setup
import ImportGroups.Proofs.Independence

/-!
Where the way through the start paths of a run breaks off.

A start path ends a run if its name is too long, if there is a pattern for what lies below it that is
none, or if its directories are nested too deeply. The patterns of its ignore file come before those
of the configuration, and the first start path that ends the run decides.
-/

namespace ImportGroups

open Text (Bytes)

namespace FileTree

inductive IgnoreStops (t : FileTree) (cwd : List String) (config : Config) (start : Path) :
    Fault → Prop where
  | longName {place : List String} {entries : List (String × Node)}
      (hon : config.gitignore = true) (hdir : t.locate cwd start = .ok (place, .dir entries))
      (h : t.locate cwd (start.child ".gitignore") = .error .nameTooLong) :
      IgnoreStops t cwd config start .longName
  | badPattern {place : List String} {entries : List (String × Node)} {content : Bytes}
      {e : PatternError} (hon : config.gitignore = true)
      (hdir : t.locate cwd start = .ok (place, .dir entries))
      (hread : t.read cwd (start.child ".gitignore") = .ok content)
      (h : FirstBadPattern (ignoreLines content) e) :
      IgnoreStops t cwd config start (.badPattern e)

/-- Why there are no rules for the walk from a start path. -/
inductive RulesStop (t : FileTree) (cwd : List String) (config : Config) (start : Path) :
    Fault → Prop where
  | ignore {f : Fault} (h : t.IgnoreStops cwd config start f) : RulesStop t cwd config start f
  | exclude {place : List String} {n : Node} {e : PatternError}
      (hfound : t.locate cwd start = .ok (place, n))
      (hignore : ∀ f, ¬ t.IgnoreStops cwd config start f)
      (h : FirstBadPattern config.exclude e) : RulesStop t cwd config start (.badPattern e)

variable {t : FileTree} {cwd : List String} {config : Config} {start : Path} {f : Fault}

theorem RulesStop.found (h : t.RulesStop cwd config start f) :
    ∃ place n, t.locate cwd start = .ok (place, n) := by
  cases h with
  | ignore h =>
    cases h with
    | longName _ hdir _ => exact ⟨_, _, hdir⟩
    | badPattern _ hdir _ _ => exact ⟨_, _, hdir⟩
  | exclude hfound _ _ => exact ⟨_, _, hfound⟩

end FileTree

end ImportGroups
