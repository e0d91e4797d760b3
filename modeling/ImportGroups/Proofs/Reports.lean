import ImportGroups.Proofs.BreakingOff.Run
import ImportGroups.Proofs.JsonText

/-!
Lines, report and exit status.

All three are made from the verdicts that are not good, so they agree on what failed. A command line
with the option for a report in front goes the same way and prints the same failures.
-/

namespace ImportGroups

namespace Verdict

variable {v : Verdict}

/-- What a report says about a failing file. -/
def entry (v : Verdict) : FailureEntry where
  path := v.path.toString
  kind := v.kind?.getD ""
  message := v.message

theorem entry?_eq (v : Verdict) : Report.entry? v = if v.ok then none else some v.entry := by
  obtain ⟨path, violation, error⟩ := v
  cases error with
  | some e => simp [Report.entry?, kind?, ok, entry]
  | none => cases violation <;> simp [Report.entry?, kind?, ok, entry]

theorem entry_of_error {e : String} (h : v.error = some e) :
    v.entry = ⟨v.path.toString, "extraction_error", e⟩ := by
  simp [entry, kind?, message, h]

theorem entry_of_violation {w : Violation} (herror : v.error = none) (h : v.violation = some w) :
    v.entry = ⟨v.path.toString, w.kind, w.message⟩ := by
  simp [entry, kind?, message, herror, h]

theorem not_ok_cases (h : v.ok = false) :
    (∃ e, v.error = some e) ∨ v.error = none ∧ ∃ w, v.violation = some w := by
  cases herror : v.error with
  | some e => exact .inl ⟨e, rfl⟩
  | none =>
    cases hviolation : v.violation with
    | some w => exact .inr ⟨rfl, w, rfl⟩
    | none => simp [ok, herror, hviolation] at h

end Verdict

theorem Violation.kind_ne_error (w : Violation) : w.kind ≠ "extraction_error" := by
  cases w <;> simp [kind]

section

variable {root : String} {verdicts : List Verdict}

theorem failures_ofVerdicts (root : String) (verdicts : List Verdict) :
    (Report.ofVerdicts root verdicts).failures = (failing verdicts).map Verdict.entry := by
  change verdicts.filterMap Report.entry? = (verdicts.filter (!·.ok)).map Verdict.entry
  induction verdicts with
  | nil => rfl
  | cons v vs ih =>
    rw [List.filterMap_cons, Verdict.entry?_eq, List.filter_cons, ih]
    cases v.ok <;> rfl

theorem reportLines_eq (root : String) (verdicts : List Verdict) :
    reportLines verdicts =
      (Report.ofVerdicts root verdicts).failures.map fun f => f.path ++ ": " ++ f.message := by
  rw [failures_ofVerdicts, List.map_map]
  rfl

theorem failing_eq_nil_iff : failing verdicts = [] ↔ verdicts.all Verdict.ok = true := by
  simp [failing]

theorem exitStatus_eq_zero_iff : exitStatus verdicts = 0 ↔ failing verdicts = [] := by
  rw [failing_eq_nil_iff]
  unfold exitStatus
  split_ifs with h <;> simp [h]

theorem reportLines_eq_nil_iff : reportLines verdicts = [] ↔ failing verdicts = [] := by
  simp [reportLines]

theorem report_ok_iff : (Report.ofVerdicts root verdicts).ok = true ↔ failing verdicts = [] := by
  simp [Report.ok, failures_ofVerdicts]

/-- An entry of a report tells what is wrong with a file. An error comes before a violation. -/
structure FailureEntry.Tells (f : FailureEntry) (v : Verdict) : Prop where
  path : f.path = v.path.toString
  kind : f.kind = "extraction_error" ↔ v.error.isSome = true
  error : ∀ e, v.error = some e → f.message = e
  violation : v.error = none → ∃ w, v.violation = some w ∧ f.kind = w.kind ∧ f.message = w.message

theorem Verdict.entry_tells {v : Verdict} (h : v.ok = false) : v.entry.Tells v := by
  rcases not_ok_cases h with ⟨e, he⟩ | ⟨he, w, hw⟩
  · rw [entry_of_error he]
    constructor
    · rfl
    · simp [he]
    · intro e' he'
      rw [he] at he'
      exact Option.some.inj he'
    · simp [he]
  · rw [entry_of_violation he hw]
    constructor
    · rfl
    · simp [he, w.kind_ne_error]
    · simp [he]
    · intro _
      exact ⟨w, hw, rfl, rfl⟩

/-- Lines, report and status say the same about the verdicts: there is a line and an entry for each
that is not good, in order. -/
structure Agree (verdicts : List Verdict) (lines : List String) (report : Report) (status : Nat) :
    Prop where
  checked : report.filesChecked = verdicts.length
  linesOfEntries : lines.length = report.failures.length
  entriesOfFailing : report.failures.length = (verdicts.filter (!·.ok)).length
  entry : ∀ (i : Nat) (f : FailureEntry), report.failures[i]? = some f →
    lines[i]? = some (f.path ++ ": " ++ f.message) ∧
      ∃ v, (verdicts.filter (!·.ok))[i]? = some v ∧ f.Tells v
  status : status = 0 ↔ lines = []
  ok : lines = [] ↔ report.ok = true

theorem agree_ofVerdicts (root : String) (verdicts : List Verdict) :
    Agree verdicts (reportLines verdicts) (Report.ofVerdicts root verdicts) (exitStatus verdicts) := by
  constructor
  · rfl
  · rw [reportLines_eq root, List.length_map]
  · rw [failures_ofVerdicts, List.length_map]
    rfl
  · intro i f hf
    constructor
    · rw [reportLines_eq root, List.getElem?_map, hf]
      rfl
    · rw [failures_ofVerdicts, List.getElem?_map] at hf
      obtain ⟨v, hv, rfl⟩ := Option.map_eq_some_iff.mp hf
      have hmem := List.mem_of_getElem? hv
      exact ⟨v, hv, Verdict.entry_tells (by simpa [failing] using (List.mem_filter.mp hmem).2)⟩
  · rw [exitStatus_eq_zero_iff, reportLines_eq_nil_iff]
  · rw [report_ok_iff, reportLines_eq_nil_iff]

end

namespace CommandLine

def Settings.asReport (s : Settings) : Settings := { s with json := true }

def Request.asReport : Request → Request
  | .check s paths => .check s.asReport paths
  | q => q

namespace Reading

def asReport (r : Reading) : Reading := { r with settings := r.settings.asReport }

variable (r : Reading)

theorem plain_asReport (w : String) : r.asReport.plain w = (r.plain w).asReport := by
  unfold plain
  cases h : r.phase <;> simp [asReport, h]

theorem leavePaths_asReport : r.asReport.leavePaths = r.leavePaths.asReport := by
  unfold leavePaths asReport
  split_ifs <;> rfl

theorem setValue_asReport (f : Flag) (value : String) :
    r.asReport.setValue f value = (r.setValue f value).asReport := by
  cases f <;> rfl

theorem setFlag_asReport (f : Flag) : r.asReport.setFlag f = (r.setFlag f).map asReport := by
  cases f <;> rfl

theorem setFlags_asReport (fs : List Flag) :
    r.asReport.setFlags fs = (r.setFlags fs).map asReport := by
  induction fs generalizing r with
  | nil => rfl
  | cons f fs ih =>
    unfold setFlags
    rw [setFlag_asReport]
    cases r.setFlag f with
    | error q => rfl
    | ok r' => exact ih r'

theorem request_asReport : r.asReport.request = r.request.map Request.asReport := by
  unfold request
  change (if r.extra.isEmpty then _ else _) = _
  split_ifs <;> rfl

variable {r}

/-- A reading that ends early does not ask for a check. -/
theorem asReport_of_setFlags_error {fs : List Flag} {q : Request} (h : r.setFlags fs = .error q) :
    q.asReport = q := by
  induction fs generalizing r with
  | nil => cases h
  | cons f fs ih =>
    unfold setFlags at h
    cases hf : r.setFlag f with
    | ok r' =>
      rw [hf] at h
      exact ih h
    | error q' =>
      rw [hf] at h
      cases h
      cases f <;> cases hf <;> rfl

end Reading

theorem readWords_asReport (r : Reading) (ws : List Word) :
    readWords r.asReport ws = (readWords r ws).map Request.asReport := by
  fun_induction readWords r ws with
  | case1 r => exact r.request_asReport
  | case2 r text rest ih => rw [readWords, Reading.plain_asReport, ih]
  | case3 r text rest ih => rw [readWords, Reading.plain_asReport, ih]
  | case4 r text rest ih =>
    rw [readWords, Reading.leavePaths_asReport, ← ih]
    rfl
  | case5 r text rest f short hf v ih =>
    simp only [readWords, hf, if_true]
    rw [Reading.leavePaths_asReport, Reading.setValue_asReport, ← ih]
  | case6 r text f short hf v rest ih =>
    simp only [readWords, hf, if_true]
    rw [Reading.leavePaths_asReport, Reading.setValue_asReport, ← ih]
  | case7 r text rest f short hf hrest =>
    simp only [readWords, hf, if_true]
    rfl
  | case8 r text rest f short value hf e he =>
    rw [readWords.eq_def]
    simp only [hf, he, Bool.false_eq_true, if_false]
    rfl
  | case9 r text rest f short value hf fs hfs r' hr' ih =>
    rw [readWords.eq_def]
    simp only [hf, hfs, Bool.false_eq_true, if_false]
    rw [Reading.leavePaths_asReport, Reading.setFlags_asReport, hr', ← ih]
    rfl
  | case10 r text rest f short value hf fs hfs q hq =>
    rw [readWords.eq_def]
    simp only [hf, hfs, Bool.false_eq_true, if_false]
    rw [Reading.leavePaths_asReport, Reading.setFlags_asReport, hq]
    simp [Except.map, Reading.asReport_of_setFlags_error hq]

/-- The option in front of a command line changes nothing but the form of the output. -/
theorem parse_json (args : List String) :
    parse ("--json" :: args) = (parse args).map Request.asReport := by
  have hkind : wordKind "--json" = .ok (.option .json false none) := rfl
  unfold parse
  rw [words, hkind]
  · cases words args with
    | error e => rfl
    | ok ws =>
      change readWords {} (⟨"--json", .option .json false none⟩ :: ws) = _
      rw [readWords.eq_def]
      exact readWords_asReport {} ws
  · decide

/-- The run comes to the end of its check with these verdicts. -/
def Checks (t : FileTree) (cwd : List String) (env : Environment) (reader : Yaml.Reader)
    (s : Settings) (paths : List String) (root : RootPackage) (verdicts : List Verdict) : Prop :=
  ∃ config, (effectiveConfig t cwd reader s).1 = .ok config ∧
    t.resolveRoot cwd (Path.absolute cwd) env.gopath config.root = .ok root ∧
    t.runCheck cwd root.name config (paths.map Path.ofString) = .ok verdicts

variable {t : FileTree} {cwd : List String} {env : Environment} {reader : Yaml.Reader}
  {s : Settings} {paths : List String}

theorem checkWith_of_runCheck {debug : Bool} {config : Config} {root said : String}
    {verdicts : List Verdict}
    (h : t.runCheck cwd root config (paths.map Path.ofString) = .ok verdicts) :
    (checkWith t cwd debug s paths config root said).out = output s root verdicts ∧
      (checkWith t cwd debug s paths config root said).exit = .ok (exitStatus verdicts) := by
  unfold FileTree.runCheck at h
  unfold checkWith
  cases hsteps : t.steps cwd config (paths.map Path.ofString) with
  | mk ss f? =>
    rw [hsteps] at h
    cases f? with
    | some f => cases h
    | none =>
      cases h
      exact ⟨rfl, rfl⟩

theorem checkWith_out_eq_empty {debug : Bool} {config : Config} {root said : String}
    (h : ∀ verdicts, t.runCheck cwd root config (paths.map Path.ofString) ≠ .ok verdicts) :
    (checkWith t cwd debug s paths config root said).out = "" := by
  unfold FileTree.runCheck at h
  unfold checkWith
  cases hsteps : t.steps cwd config (paths.map Path.ofString) with
  | mk ss f? =>
    rw [hsteps] at h
    cases f? with
    | some f => rfl
    | none => exact absurd rfl (h _)

theorem runCheck_of_checks {root : RootPackage} {verdicts : List Verdict}
    (h : Checks t cwd env reader s paths root verdicts) :
    (runCheck t cwd env reader s paths).1.out = output s root.name verdicts ∧
      (runCheck t cwd env reader s paths).1.exit = .ok (exitStatus verdicts) := by
  obtain ⟨config, hconfig, hroot, hverdicts⟩ := h
  have hpair : effectiveConfig t cwd reader s =
      (.ok config, (effectiveConfig t cwd reader s).2) := Prod.ext hconfig rfl
  unfold runCheck
  rw [hpair]
  simp only [runWith, hroot]
  exact checkWith_of_runCheck hverdicts

theorem runCheck_out_eq_empty (h : ∀ root verdicts, ¬ Checks t cwd env reader s paths root verdicts) :
    (runCheck t cwd env reader s paths).1.out = "" := by
  unfold runCheck
  cases heffective : effectiveConfig t cwd reader s with
  | mk result after =>
    have hconfig : (effectiveConfig t cwd reader s).1 = result := by rw [heffective]
    cases result with
    | error a => cases a <;> rfl
    | ok config =>
      simp only [runWith]
      cases hroot : t.resolveRoot cwd (Path.absolute cwd) env.gopath config.root with
      | error a => cases a <;> rfl
      | ok root =>
        apply checkWith_out_eq_empty
        intro verdicts hverdicts
        exact h root verdicts ⟨config, hconfig, hroot, hverdicts⟩

theorem checkWith_asReport {debug : Bool} {config : Config} {root said : String} :
    (checkWith t cwd debug s.asReport paths config root said).exit =
        (checkWith t cwd debug s paths config root said).exit ∧
      (checkWith t cwd debug s.asReport paths config root said).err =
        (checkWith t cwd debug s paths config root said).err := by
  unfold checkWith
  cases t.steps cwd config (paths.map Path.ofString) with
  | mk ss f? => cases f? <;> exact ⟨rfl, rfl⟩

theorem runWith_asReport {debug : Bool} {config : Config} {said : String} :
    (runWith t cwd env debug s.asReport paths config said).exit =
        (runWith t cwd env debug s paths config said).exit ∧
      (runWith t cwd env debug s.asReport paths config said).err =
        (runWith t cwd env debug s paths config said).err := by
  unfold runWith
  cases t.resolveRoot cwd (Path.absolute cwd) env.gopath config.root with
  | error a => cases a <;> exact ⟨rfl, rfl⟩
  | ok root => exact checkWith_asReport

/-- Status and messages do not depend on the form of the output. -/
theorem runCheck_asReport :
    (runCheck t cwd env reader s.asReport paths).1.exit = (runCheck t cwd env reader s paths).1.exit ∧
      (runCheck t cwd env reader s.asReport paths).1.err =
        (runCheck t cwd env reader s paths).1.err ∧
      (runCheck t cwd env reader s.asReport paths).2 = (runCheck t cwd env reader s paths).2 := by
  have hconfig : effectiveConfig t cwd reader s.asReport = effectiveConfig t cwd reader s := rfl
  unfold runCheck
  rw [hconfig]
  cases effectiveConfig t cwd reader s with
  | mk result after =>
    cases result with
    | error a => cases a <;> exact ⟨rfl, rfl, rfl⟩
    | ok config =>
      obtain ⟨hexit, herr⟩ := runWith_asReport
      exact ⟨hexit, herr, rfl⟩

/-- Lines, report and status agree on all verdicts. With the option for a report in front, a run
that would print lines ends with the same status and messages and reports the same failures, and the
text of a report tells it from every other one. -/
theorem report_agrees_with_lines (t : FileTree) (cwd : List String) (env : Environment)
    (reader : Yaml.Reader) (args : List String) (s : Settings) (paths : List String)
    (hargs : parse args = .ok (.check s paths)) (hlines : s.json = false) :
    (∀ root verdicts, Agree verdicts (reportLines verdicts) (Report.ofVerdicts root verdicts)
      (exitStatus verdicts)) ∧
    (run t cwd env reader ("--json" :: args)).1.exit = (run t cwd env reader args).1.exit ∧
    (run t cwd env reader ("--json" :: args)).1.err = (run t cwd env reader args).1.err ∧
    (run t cwd env reader ("--json" :: args)).2 = (run t cwd env reader args).2 ∧
    (∀ root verdicts, Checks t cwd env reader s paths root verdicts →
      (run t cwd env reader args).1.exit = .ok (exitStatus verdicts) ∧
      (run t cwd env reader args).1.out = unlines (reportLines verdicts) ∧
      (run t cwd env reader ("--json" :: args)).1.out =
        (Report.ofVerdicts root.name verdicts).toText ++ "\n") ∧
    ((∀ root verdicts, ¬ Checks t cwd env reader s paths root verdicts) →
      (run t cwd env reader args).1.out = "" ∧
      (run t cwd env reader ("--json" :: args)).1.out = "") ∧
    ∀ r r' : Report, r.toText = r'.toText → r = r' := by
  have hplain : run t cwd env reader args = runCheck t cwd env reader s paths := by
    simp only [run, hargs]
  have hreport : run t cwd env reader ("--json" :: args) =
      runCheck t cwd env reader s.asReport paths := by
    simp only [run, parse_json, hargs]
    rfl
  obtain ⟨hexit, herr, hreader⟩ := @runCheck_asReport t cwd env reader s paths
  rw [hplain, hreport]
  refine ⟨agree_ofVerdicts, hexit, herr, hreader, ?_, ?_, fun r r' => Report.toText_inj⟩
  · intro root verdicts hchecks
    obtain ⟨hout, hstatus⟩ := runCheck_of_checks hchecks
    have hchecks' : Checks t cwd env reader s.asReport paths root verdicts := hchecks
    obtain ⟨hout', -⟩ := runCheck_of_checks hchecks'
    refine ⟨hstatus, ?_, ?_⟩
    · rw [hout, output, hlines]
      rfl
    · rw [hout']
      rfl
  · intro hnone
    exact ⟨runCheck_out_eq_empty hnone, runCheck_out_eq_empty hnone⟩

/-- In an empty directory, a start path that does not exist is a failure. -/
theorem checks_missing_start :
    Checks {} [] {} {} { root := some "r" } ["x"] ⟨"r", .requested⟩
      [missingStart ⟨.relative, ["x"]⟩] := by
  have hfile : FileTree.locate {} [] ((Path.absolute []).child configFileName) = .error .notFound :=
    locate_in_empty rfl (by decide) (by decide) (by decide)
  have hpath : FileTree.configPath? {} [] none = .ok none := by
    simp only [FileTree.configPath?, FileTree.isFile, FileTree.find?, hfile]
    rfl
  have hconfig : (effectiveConfig {} [] {} { root := some "r" }).1 = .ok { root := some "r" } := by
    simp only [effectiveConfig, FileTree.loadConfig, Settings.configPath?, hpath]
    rfl
  have hstart : FileTree.locate {} [] (Path.ofString "x") = .error .notFound :=
    locate_in_empty rfl (by decide) (by decide) (by decide)
  have hexists : FileTree.pathExists {} [] (Path.ofString "x") = .ok false := by
    simp only [FileTree.pathExists, FileTree.find?, hstart]
    rfl
  refine ⟨_, hconfig, rfl, ?_⟩
  simp only [FileTree.runCheck, FileTree.steps, FileTree.stepsFrom, List.map_cons, List.map_nil,
    hexists]
  rfl

theorem report_agrees_with_lines_missing_start :
    parse ["--root", "r", "x"] = .ok (.check { root := some "r" } ["x"]) ∧
    (run {} [] {} {} ["--root", "r", "x"]).1.exit = .ok 1 ∧
    (run {} [] {} {} ["--json", "--root", "r", "x"]).1.exit = .ok 1 ∧
    (run {} [] {} {} ["--root", "r", "x"]).1.out =
      "x: failed to open file: no such file or directory\n" ∧
    (run {} [] {} {} ["--json", "--root", "r", "x"]).1.out =
      (Report.mk "r" 1 [⟨"x", "extraction_error",
        "failed to open file: no such file or directory"⟩]).toText ++ "\n" := by
  have hargs : parse ["--root", "r", "x"] = .ok (.check { root := some "r" } ["x"]) := rfl
  obtain ⟨-, hexit, -, -, hchecks, -, -⟩ :=
    report_agrees_with_lines {} [] {} {} ["--root", "r", "x"] _ _ hargs rfl
  obtain ⟨hstatus, hout, hreport⟩ := hchecks _ _ checks_missing_start
  exact ⟨hargs, hstatus, hexit.trans hstatus, hout, hreport⟩

end CommandLine

end ImportGroups
