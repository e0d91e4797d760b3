import ImportGroups.CommandLine.Run
import ImportGroups.Proofs.Rewriting
import ImportGroups.Proofs.WalkDepth

/-!
The exit status of a run.

A run that checks files ends with 2 exactly if its configuration is refused, and with 0 exactly if
the root package is known and every file below every start passes. A run that ends before it comes
to the files prints nothing, and what it says does not depend on the contents of any file but those
it has read to get there.
-/

namespace ImportGroups

open CommandLine

namespace FileTree

/-- The file can be read, its header is understood and its imports are grouped correctly. -/
def FilePasses (t : FileTree) (cwd : List String) (root : String) (p : Path) : Prop :=
  ∃ bytes records, t.read cwd p = .ok bytes ∧ sourceImports bytes = .ok records ∧
    analyze root records = none

def StartPasses (t : FileTree) (cwd : List String) (config : Config) (root : String)
    (start : Path) : Prop :=
  t.pathExists cwd start = .ok true ∧
    ∃ files, t.collect cwd config start = .ok files ∧ ∀ p ∈ files, t.FilePasses cwd root p

theorem verdictOn_ok_iff {t : FileTree} {cwd : List String} {root : String} {p : Path} :
    (t.verdictOn cwd root p).ok = true ↔ t.FilePasses cwd root p := by
  unfold verdictOn importsOf FilePasses
  cases hr : t.read cwd p with
  | error e => simp [Except.mapError, bind, Except.bind, Verdict.ok]
  | ok bytes =>
    cases hs : sourceImports bytes with
    | error e => simp [Except.mapError, bind, Except.bind, Verdict.ok, hs]
    | ok records => simp [Except.mapError, bind, Except.bind, Verdict.ok, hs]

theorem stepsFrom_ok_iff {t : FileTree} {cwd : List String} {config : Config} {root : String}
    {start : Path} {ss : List Step} (h : t.stepsFrom cwd config start = .ok ss) :
    (ss.filterMap (t.stepVerdict? cwd root)).all Verdict.ok = true ↔
      t.StartPasses cwd config root start := by
  rcases stepsFrom_ok h with ⟨he, rfl⟩ | ⟨he, vs, hv, rfl⟩
  · simp [stepVerdict?, missingStart, Verdict.ok, StartPasses, he]
  · have hfiles : t.collect cwd config start = .ok (vs.filterMap Visit.file?) := by
      simp [collect, hv, Except.map]
    have hverdicts : (vs.map Step.visit).filterMap (t.stepVerdict? cwd root) =
        (vs.filterMap Visit.file?).map (t.verdictOn cwd root) := by
      rw [List.filterMap_map, List.map_filterMap]
      rfl
    rw [hverdicts, List.all_eq_true, List.forall_mem_map]
    simp only [verdictOn_ok_iff, StartPasses, he, hfiles, true_and, Except.ok.injEq,
      exists_eq_left']

/-- The verdicts of a run that comes to its end are good exactly if every start passes. -/
theorem steps_ok_iff {t : FileTree} {cwd : List String} {config : Config} (root : String)
    {starts : List Path} {ss : List Step} (h : t.steps cwd config starts = (ss, none)) :
    (ss.filterMap (t.stepVerdict? cwd root)).all Verdict.ok = true ↔
      ∀ start ∈ starts, t.StartPasses cwd config root start := by
  induction starts generalizing ss with
  | nil =>
    cases h
    simp
  | cons start rest ih =>
    unfold steps at h
    cases hs : t.stepsFrom cwd config start with
    | error f => simp [hs] at h
    | ok first =>
      cases hm : t.steps cwd config rest with
      | mk more f? =>
        simp only [hs, hm, Prod.mk.injEq] at h
        obtain ⟨rfl, rfl⟩ := h
        rw [List.filterMap_append, List.all_append, Bool.and_eq_true, stepsFrom_ok_iff hs, ih hm,
          List.forall_mem_cons]

end FileTree

namespace CommandLine

variable {t : FileTree} {cwd : List String} {env : Environment} {reader : Yaml.Reader}
  {s : Settings} {paths : List String}

def ConfigRefused (t : FileTree) (cwd : List String) (reader : Yaml.Reader) (s : Settings) : Prop :=
  ∃ e, (effectiveConfig t cwd reader s).1 = .error (.refused e)

/-- No root package is found under the configuration. -/
def RootRefused (t : FileTree) (cwd : List String) (env : Environment) (reader : Yaml.Reader)
    (s : Settings) : Prop :=
  ∃ config e, (effectiveConfig t cwd reader s).1 = .ok config ∧
    t.resolveRoot cwd (Path.absolute cwd) env.gopath config.root = .error (.refused e)

/-- There are a configuration and a root package under which every start passes. -/
def AllPass (t : FileTree) (cwd : List String) (env : Environment) (reader : Yaml.Reader)
    (s : Settings) (paths : List String) : Prop :=
  ∃ config root, (effectiveConfig t cwd reader s).1 = .ok config ∧
    t.resolveRoot cwd (Path.absolute cwd) env.gopath config.root = .ok root ∧
    ∀ p ∈ paths, t.StartPasses cwd config root.name (Path.ofString p)

/-- A file that is read before any file is checked stands at this place: the configuration file, or
the module file where it decides on the root package. -/
def ReadForSetup (t : FileTree) (cwd : List String) (env : Environment) (reader : Yaml.Reader)
    (s : Settings) (place : List String) : Prop :=
  (∃ p n, t.configPath? cwd s.configPath? = .ok (some p) ∧ t.locate cwd p = .ok (place, n)) ∨
  ∃ config e p n, (effectiveConfig t cwd reader s).1 = .ok config ∧ config.root = none ∧
    t.rootFromGopath cwd (Path.absolute cwd) env.gopath = .error (.refused e) ∧ e ≠ .tooShallow ∧
    t.findGoMod cwd (Path.absolute cwd) = .ok (some p) ∧ t.locate cwd p = .ok (place, n)

theorem checkWith_exit {debug : Bool} {config : Config} {root said : String} {n : Nat}
    (h : (checkWith t cwd debug s paths config root said).exit = .ok n) :
    (n = 0 ∨ n = 1) ∧
      (n = 0 ↔ ∀ p ∈ paths, t.StartPasses cwd config root (Path.ofString p)) := by
  unfold checkWith at h
  cases hs : t.steps cwd config (paths.map Path.ofString) with
  | mk ss f? =>
    cases f? with
    | some f => simp [hs] at h
    | none =>
      simp only [hs, Except.ok.injEq] at h
      subst h
      have hall := FileTree.steps_ok_iff root hs
      rw [List.forall_mem_map] at hall
      rw [← hall]
      unfold exitStatus
      split_ifs with hok <;> simp [hok]

theorem runWith_exit {debug : Bool} {config : Config} {said : String} {n : Nat}
    (h : (runWith t cwd env debug s paths config said).exit = .ok n) :
    (n = 0 ∨ n = 1) ∧
      (n = 0 ↔ ∃ root, t.resolveRoot cwd (Path.absolute cwd) env.gopath config.root = .ok root ∧
        ∀ p ∈ paths, t.StartPasses cwd config root.name (Path.ofString p)) := by
  unfold runWith at h
  cases hr : t.resolveRoot cwd (Path.absolute cwd) env.gopath config.root with
  | error a =>
    cases a with
    | fault f => simp [hr] at h
    | refused e =>
      simp only [hr, Except.ok.injEq] at h
      subst h
      simp
  | ok root =>
    simp only [hr] at h
    simpa using checkWith_exit h

theorem runCheck_exit {n : Nat}
    (h : (runCheck t cwd env reader s paths).1.exit = .ok n) :
    (n = 2 ↔ ConfigRefused t cwd reader s) ∧
      (¬ ConfigRefused t cwd reader s →
        (n = 0 ∨ n = 1) ∧ (n = 0 ↔ AllPass t cwd env reader s paths)) := by
  unfold runCheck at h
  unfold ConfigRefused AllPass
  cases he : effectiveConfig t cwd reader s with
  | mk result after =>
    cases result with
    | error a =>
      cases a with
      | fault f => simp [he] at h
      | refused e =>
        simp only [he, Except.ok.injEq] at h
        subst h
        simp
    | ok config =>
      simp only [he] at h
      obtain ⟨hstatus, hpass⟩ := runWith_exit h
      refine ⟨?_, fun _ => ⟨hstatus, ?_⟩⟩
      · simp
        omega
      · simpa using hpass

variable {f : List String → Text.Bytes → Text.Bytes}

theorem loadConfig_rewrite
    (h : ∀ place, t.Touched f place → ¬ ReadForSetup t cwd env reader s place) :
    (t.rewrite f).loadConfig cwd reader s.configPath? = t.loadConfig cwd reader s.configPath? := by
  unfold FileTree.loadConfig
  rw [FileTree.configPath?_rewrite]
  cases hc : t.configPath? cwd s.configPath? with
  | error e => rfl
  | ok p? =>
    cases p? with
    | none => rfl
    | some p =>
      have hread : (t.rewrite f).read cwd p = t.read cwd p := by
        apply FileTree.read_rewrite
        intro place n hl ht
        exact h place ht (.inl ⟨p, n, hc, hl⟩)
      simp only [FileTree.readConfig, hread]

theorem effectiveConfig_rewrite
    (h : ∀ place, t.Touched f place → ¬ ReadForSetup t cwd env reader s place) :
    effectiveConfig (t.rewrite f) cwd reader s = effectiveConfig t cwd reader s := by
  simp only [effectiveConfig, loadConfig_rewrite h]

theorem resolveRoot_rewrite {config : Config}
    (hc : (effectiveConfig t cwd reader s).1 = .ok config)
    (h : ∀ place, t.Touched f place → ¬ ReadForSetup t cwd env reader s place) :
    (t.rewrite f).resolveRoot cwd (Path.absolute cwd) env.gopath config.root =
      t.resolveRoot cwd (Path.absolute cwd) env.gopath config.root := by
  unfold FileTree.resolveRoot
  cases hroot : config.root with
  | some requested => rfl
  | none =>
    simp only [FileTree.rootFromGopath_rewrite]
    cases hg : t.rootFromGopath cwd (Path.absolute cwd) env.gopath with
    | ok name => rfl
    | error a =>
      cases a with
      | fault fault => rfl
      | refused e =>
        by_cases hshallow : e = .tooShallow
        · subst hshallow
          rfl
        · have hmodule : (t.rewrite f).rootFromModule cwd (Path.absolute cwd) e =
              t.rootFromModule cwd (Path.absolute cwd) e := by
            unfold FileTree.rootFromModule
            rw [FileTree.findGoMod_rewrite]
            cases hm : t.findGoMod cwd (Path.absolute cwd) with
            | error fault => rfl
            | ok p? =>
              cases p? with
              | none => rfl
              | some p =>
                have hread : (t.rewrite f).read cwd p = t.read cwd p := by
                  apply FileTree.read_rewrite
                  intro place n hl ht
                  exact h place ht (.inr ⟨config, e, p, n, hc, hroot, hg, hshallow, hm, hl⟩)
                simp only [FileTree.readModulePath, hread]
          cases e with
          | tooShallow => exact absurd rfl hshallow
          | emptyOverride => exact hmodule
          | noGopath => exact hmodule
          | outsideGopath => exact hmodule

/-- A run that ends before it comes to the files prints nothing and goes the same way on every tree
with the same setup. -/
theorem runCheck_early
    (hstop : ConfigRefused t cwd reader s ∨ RootRefused t cwd env reader s) :
    (runCheck t cwd env reader s paths).1.out = "" ∧
      ∀ f, (∀ place, t.Touched f place → ¬ ReadForSetup t cwd env reader s place) →
        runCheck (t.rewrite f) cwd env reader s paths = runCheck t cwd env reader s paths := by
  have hmessage : ∀ f, (t.rewrite f).configMessage? cwd s.configPath? =
      t.configMessage? cwd s.configPath? := by
    intro f
    simp only [FileTree.configMessage?, FileTree.configPath?_rewrite]
  rcases hstop with ⟨e, he⟩ | ⟨config, e, hc, hr⟩
  · have hpair : effectiveConfig t cwd reader s =
        (.error (.refused e), (effectiveConfig t cwd reader s).2) := Prod.ext he rfl
    refine ⟨?_, fun f h => ?_⟩
    · unfold runCheck
      rw [hpair]
    · unfold runCheck
      rw [effectiveConfig_rewrite h, hmessage, hpair]
  · have hpair : effectiveConfig t cwd reader s =
        (.ok config, (effectiveConfig t cwd reader s).2) := Prod.ext hc rfl
    refine ⟨?_, fun f h => ?_⟩
    · unfold runCheck
      rw [hpair]
      simp only [runWith, hr]
    · unfold runCheck
      rw [effectiveConfig_rewrite h, hmessage, hpair]
      simp only [runWith, resolveRoot_rewrite hc h, hr]

/-- The exit status of a run that checks files, and what a run that ends early depends on. -/
theorem run_exit_status (t : FileTree) (cwd : List String) (env : Environment)
    (reader : Yaml.Reader) (args : List String) (s : Settings) (paths : List String) (n : Nat)
    (hargs : parse args = .ok (.check s paths))
    (hexit : (run t cwd env reader args).1.exit = .ok n) :
    (n = 2 ↔ ConfigRefused t cwd reader s) ∧
    (¬ ConfigRefused t cwd reader s →
      (n = 0 ↔ AllPass t cwd env reader s paths) ∧
      (¬ AllPass t cwd env reader s paths → n = 1)) ∧
    (ConfigRefused t cwd reader s ∨ RootRefused t cwd env reader s →
      (run t cwd env reader args).1.out = "" ∧
      ∀ f : List String → Text.Bytes → Text.Bytes,
        (∀ place, t.Touched f place → ¬ ReadForSetup t cwd env reader s place) →
          (run (t.rewrite f) cwd env reader args).1 = (run t cwd env reader args).1) := by
  have hrun : ∀ t : FileTree, run t cwd env reader args = runCheck t cwd env reader s paths := by
    intro t
    simp only [run, hargs]
  rw [hrun] at hexit ⊢
  obtain ⟨htwo, hrest⟩ := runCheck_exit hexit
  refine ⟨htwo, fun hc => ?_, fun hstop => ?_⟩
  · obtain ⟨hstatus, hpass⟩ := hrest hc
    refine ⟨hpass, fun hn => ?_⟩
    have hne : n ≠ 0 := fun h => hn (hpass.mp h)
    exact hstatus.resolve_left hne
  · obtain ⟨hout, hsame⟩ := @runCheck_early t cwd env reader s paths hstop
    refine ⟨hout, fun f h => ?_⟩
    rw [hrun, hsame f h]

def loneFile (content : Text.Bytes) : FileTree where
  entries := [("a.go", .file content)]

section LoneFile

variable {content : Text.Bytes}

theorem loneFile_configPath? : (loneFile content).configPath? [] none = .ok none := by
  have hp : (Path.absolute []).child configFileName = ⟨.root, [configFileName]⟩ := by decide
  have hl : (loneFile content).locate [] ⟨.root, [configFileName]⟩ = .error .notFound := by
    rw [FileTree.locate, if_neg (by decide), if_neg (by decide), FileTree.locateFrom,
      if_neg (by decide), if_neg (by decide), if_neg (by decide)]
    rfl
  simp only [FileTree.configPath?, hp, FileTree.isFile, FileTree.find?, hl]
  rfl

theorem loneFile_config (content : Text.Bytes) {s : Settings} (hs : s.config = none) :
    (effectiveConfig (loneFile content) [] {} s).1 =
      (({} : Config).override s.override).mapError .refused := by
  simp only [effectiveConfig, FileTree.loadConfig, Settings.configPath?, hs, loneFile_configPath?]
  rfl

theorem loneFile_steps : (loneFile content).steps [] { root := some "r", gitignore := false } [{}] =
    ([.visit (.goFile ⟨.relative, ["a.go"]⟩)], none) := by
  have hstart : (loneFile content).locate [] {} = .ok ([], .dir [("a.go", .file content)]) := by
    rw [FileTree.locate, if_neg (by decide), if_neg (by decide), FileTree.locateFrom]
    rfl
  have hrules : (loneFile content).walkRules [] { root := some "r", gitignore := false } {} =
      .ok ⟨"vendor", ignoredBy none none⟩ := rfl
  have hvisits : (loneFile content).visits [] {} ⟨"vendor", ignoredBy none none⟩ =
      .ok [.goFile ⟨.relative, ["a.go"]⟩] := by
    have hsorted : (Node.dir [("a.go", .file content)]).sorted = .dir [("a.go", .file content)] := by
      rw [Node.sorted_dir, Node.ordered, Node.sortedEntries_eq]
      exact congrArg Node.dir (List.mergeSort_singleton _)
    have hopens : (WalkPlace.top [] {}).opens = true := by decide
    have hgo : isGoFile "a.go" = true := by decide
    have hchild : ({} : Path).child "a.go" = ⟨.relative, ["a.go"]⟩ := by decide
    rw [FileTree.visits, if_neg (by decide), hstart]
    show Except.ok ((loneFile content).dirVisits _ (.top [] _) (Node.sorted _)) = _
    have hsub : (loneFile content).subVisits ⟨"vendor", ignoredBy none none⟩ (.top [] {})
        [("a.go", .file content)] = [] := by
      simp only [FileTree.subVisits, FileTree.dirVisits, ite_self, List.append_nil]
    rw [hsorted, FileTree.dirVisits, if_pos hopens, hsub]
    simp [FileTree.ownVisits, FileTree.leadsToDir, WalkPlace.fileVisit?, WalkPlace.top, ignoredBy,
      hgo, hchild]
  simp only [FileTree.steps, FileTree.stepsFrom, FileTree.pathExists, FileTree.find?, hstart,
    FileTree.visitsUnder, FileTree.isTooDeep, hrules, hvisits, Except.map, bind, Except.bind]
  rfl

theorem loneFile_verdict {records : List Record} (h : sourceImports content = .ok records) :
    (loneFile content).verdictOn [] "r" ⟨.relative, ["a.go"]⟩ =
      { path := ⟨.relative, ["a.go"]⟩, violation := analyze "r" records } := by
  have hlocate : (loneFile content).locate [] ⟨.relative, ["a.go"]⟩ =
      .ok (["a.go"], .file content) := by
    rw [FileTree.locate, if_neg (by decide), if_neg (by decide), FileTree.locateFrom,
      if_neg (by decide), if_neg (by decide), if_neg (by decide)]
    rfl
  simp only [FileTree.verdictOn, FileTree.importsOf, FileTree.read, hlocate, Except.mapError, bind,
    Except.bind, h]

theorem loneFile_exit {records : List Record} (h : sourceImports content = .ok records) :
    (run (loneFile content) [] {} {} ["--root", "r", "--no-gitignore"]).1.exit =
      .ok (if (analyze "r" records).isNone then 0 else 1) := by
  have hrun : run (loneFile content) [] {} {} ["--root", "r", "--no-gitignore"] =
      runCheck (loneFile content) [] {} {} { root := some "r", noGitignore := true } ["."] := rfl
  have hroot : (loneFile content).resolveRoot [] (Path.absolute []) "" (some "r") =
      .ok ⟨"r", .requested⟩ := rfl
  have hpaths : ["."].map Path.ofString = [{}] := by decide
  have hpair := Prod.ext (y := (_, _))
    (loneFile_config content (s := { root := some "r", noGitignore := true }) rfl) rfl
  rw [hrun, runCheck, hpair]
  show (runWith (loneFile content) [] {} _ _ _ { root := some "r", gitignore := false } _).exit = _
  simp only [runWith, hroot, checkWith, hpaths, loneFile_steps]
  show Except.ok (exitStatus [(loneFile content).verdictOn [] "r" ⟨.relative, ["a.go"]⟩]) = _
  rw [loneFile_verdict h]
  cases analyze "r" records <;> rfl

end LoneFile

/-- The one file has no imports, or two groups of one kind. -/
theorem run_exit_status_loneFile :
    ((run (loneFile (Text.encodeUtf8 "package p\n")) [] {} {}
        ["--root", "r", "--no-gitignore"]).1.exit = .ok 0 ∧
      AllPass (loneFile (Text.encodeUtf8 "package p\n")) [] {} {}
        { root := some "r", noGitignore := true } ["."]) ∧
    (run (loneFile (Text.encodeUtf8 "package p\nimport(\"a\"\n\n\t\"b\")\n")) [] {} {}
        ["--root", "r", "--no-gitignore"]).1.exit = .ok 1 ∧
      ¬ AllPass (loneFile (Text.encodeUtf8 "package p\nimport(\"a\"\n\n\t\"b\")\n")) [] {} {}
        { root := some "r", noGitignore := true } ["."] := by
  have hargs : parse ["--root", "r", "--no-gitignore"] =
      .ok (.check { root := some "r", noGitignore := true } ["."]) := rfl
  have hconfig : ∀ content, ¬ ConfigRefused (loneFile content) [] {}
      { root := some "r", noGitignore := true } := by
    rintro content ⟨e, he⟩
    rw [loneFile_config content rfl] at he
    cases he
  have hnone : sourceImports (Text.encodeUtf8 "package p\n") = .ok [] := by decide +kernel
  have htwo : sourceImports (Text.encodeUtf8 "package p\nimport(\"a\"\n\n\t\"b\")\n") =
      .ok [⟨"a", 17, 20⟩, ⟨"b", 23, 26⟩] := by decide +kernel
  have hgood := loneFile_exit hnone
  have hbad := loneFile_exit htwo
  obtain ⟨-, hpass, -⟩ := run_exit_status _ _ _ _ _ _ _ _ hargs hgood
  obtain ⟨-, hfail, -⟩ := run_exit_status _ _ _ _ _ _ _ _ hargs hbad
  refine ⟨⟨hgood, (hpass (hconfig _)).1.mp (by decide)⟩, hbad, fun hall => ?_⟩
  exact absurd ((hfail (hconfig _)).1.mpr hall) (by decide)

end CommandLine

end ImportGroups
