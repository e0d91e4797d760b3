import ImportGroups.Proofs.Rewriting
import ImportGroups.Proofs.WalkDepth
import Mathlib.Data.List.Forall2

/-!
No file bears on the verdict on another.

Which files a run comes to depends on names, links and ignore files. So a run over a tree in which
the contents of other files have changed takes the same steps, and each of its verdicts speaks of the
same path as before. A verdict on a file that has not changed is the same verdict.
-/

namespace ImportGroups

open Text (Bytes)

variable {f : List String → Bytes → Bytes}

namespace Node

theorem rewrite_entries_eq (place : List String) (entries : List (String × Node)) :
    rewrite.go f place entries = entries.map fun e => (e.1, e.2.rewrite f (place ++ [e.1])) := by
  induction entries with
  | nil => rfl
  | cons e rest ih => simp [rewrite.go, ih]

theorem isDir_rewrite (n : Node) (place : List String) : (n.rewrite f place).isDir = n.isDir := by
  cases n <;> rfl

/-- Entries are put in order by their names, whatever the files hold. -/
theorem sorted_rewrite (n : Node) (place : List String) :
    (n.rewrite f place).sorted = n.sorted.rewrite f place := by
  induction n using entriesInduction generalizing place with
  | file content => rfl
  | link target => rfl
  | dir entries ih =>
    have hsort := List.map_mergeSort (r := entryLe) (s := entryLe)
      (f := fun e : String × Node => (e.1, e.2.rewrite f (place ++ [e.1])))
      (l := sorted.sortedEntries entries) fun _ _ _ _ => rfl
    rw [rewrite, sorted_dir, sorted_dir, rewrite, ordered, ordered, rewrite_entries_eq,
      rewrite_entries_eq, hsort, sortedEntries_eq, sortedEntries_eq, List.map_map, List.map_map]
    congr 2
    apply List.map_congr_left
    intro e he
    simp [ih e he]

end Node

namespace FileTree

theorem pathExists_rewrite (t : FileTree) (cwd : List String) (p : Path) :
    (t.rewrite f).pathExists cwd p = t.pathExists cwd p := by
  unfold pathExists find?
  rw [locate_rewrite]
  cases t.locate cwd p with
  | ok x => rfl
  | error e => cases e <;> rfl

theorem isDir_rewrite (t : FileTree) (cwd : List String) (p : Path) :
    (t.rewrite f).isDir cwd p = t.isDir cwd p := by
  unfold isDir find?
  rw [locate_rewrite]
  cases t.locate cwd p with
  | ok x => simp [Except.map, Node.isDir_rewrite]
  | error e => cases e <;> rfl

theorem leadsToDir_rewrite (t : FileTree) (here place : List String) (name : String) (n : Node) :
    (t.rewrite f).leadsToDir here (name, n.rewrite f place) = t.leadsToDir here (name, n) := by
  cases n with
  | file content => rfl
  | dir entries => rfl
  | link target =>
    simp only [Node.rewrite, leadsToDir, locate_rewrite]
    cases t.locate here ⟨.relative, [name]⟩ with
    | ok x => exact Node.isDir_rewrite x.2 x.1
    | error e => rfl

theorem ownVisits_rewrite (t : FileTree) (rules : WalkRules) (w : WalkPlace) (place : List String)
    (entries : List (String × Node)) :
    (t.rewrite f).ownVisits rules w (Node.rewrite.go f place entries) =
      t.ownVisits rules w entries := by
  have hdir : (t.rewrite f).leadsToDir w.here ∘
      (fun e : String × Node => (e.1, e.2.rewrite f (place ++ [e.1]))) = t.leadsToDir w.here :=
    funext fun e => leadsToDir_rewrite t w.here _ e.1 e.2
  have hother : (fun e => !(t.rewrite f).leadsToDir w.here e) ∘
      (fun e : String × Node => (e.1, e.2.rewrite f (place ++ [e.1]))) =
        fun e => !t.leadsToDir w.here e :=
    funext fun e => congrArg not (leadsToDir_rewrite t w.here _ e.1 e.2)
  rw [ownVisits, ownVisits, Node.rewrite_entries_eq, List.filter_map, List.filter_map, hdir, hother,
    List.filterMap_map, List.filterMap_map]
  rfl

theorem dirVisits_rewrite (t : FileTree) (rules : WalkRules) (n : Node) (w : WalkPlace)
    (place : List String) :
    (t.rewrite f).dirVisits rules w (n.rewrite f place) = t.dirVisits rules w n := by
  induction n using Node.entriesInduction generalizing w place with
  | file content => rfl
  | link target => rfl
  | dir entries ih =>
    have hsub : (t.rewrite f).subVisits rules w (Node.rewrite.go f place entries) =
        t.subVisits rules w entries := by
      induction entries with
      | nil => rfl
      | cons e rest ihrest =>
        obtain ⟨hfirst, hrest⟩ := List.forall_mem_cons.mp ih
        rw [Node.rewrite.go, subVisits, subVisits, hfirst, ihrest hrest]
    rw [Node.rewrite, dirVisits, dirVisits, ownVisits_rewrite, hsub]

theorem depth_rewrite (t : FileTree) (rules : WalkRules) (n : Node) (w : WalkPlace)
    (place : List String) :
    (t.rewrite f).depth rules w (n.rewrite f place) = t.depth rules w n := by
  induction n using Node.entriesInduction generalizing w place with
  | file content => rfl
  | link target => rfl
  | dir entries ih =>
    have hsub : (t.rewrite f).subDepth rules w (Node.rewrite.go f place entries) =
        t.subDepth rules w entries := by
      induction entries with
      | nil => rfl
      | cons e rest ihrest =>
        obtain ⟨hfirst, hrest⟩ := List.forall_mem_cons.mp ih
        rw [Node.rewrite.go, subDepth, subDepth, leadsToDir_rewrite, hfirst, ihrest hrest]
    rw [Node.rewrite, depth, depth, hsub]

theorem visits_rewrite (t : FileTree) (cwd : List String) (start : Path) (rules : WalkRules) :
    (t.rewrite f).visits cwd start rules = t.visits cwd start rules := by
  unfold visits
  rw [locate_rewrite]
  split_ifs
  · rfl
  · cases t.locate cwd start with
    | error e => cases e <;> rfl
    | ok x =>
      obtain ⟨here, n⟩ := x
      cases n with
      | file content => rfl
      | link target => rfl
      | dir entries =>
        simp only [Except.map, ← dirVisits_rewrite (f := f) t rules _ _ here,
          ← Node.sorted_rewrite]
        rfl

def Untouched (f : List String → Bytes → Bytes) (t : FileTree) (cwd : List String) (p : Path) :
    Prop :=
  ∀ place n, t.locate cwd p = .ok (place, n) → ¬ t.Touched f place

variable {t : FileTree} {cwd : List String} {config : Config} {root : String}

theorem ignoreSpec?_rewrite {dir : Path} (h : t.Untouched f cwd (dir.child ".gitignore")) :
    (t.rewrite f).ignoreSpec? cwd dir = t.ignoreSpec? cwd dir := by
  have hread := read_rewrite h
  unfold read at hread
  unfold ignoreSpec? find?
  rw [locate_rewrite] at hread ⊢
  cases hl : t.locate cwd (dir.child ".gitignore") with
  | error e => cases e <;> rfl
  | ok x =>
    obtain ⟨place, n⟩ := x
    cases n with
    | dir entries => rfl
    | link target => rfl
    | file content =>
      rw [hl] at hread
      have hsame : f place content = content := Except.ok.inj hread
      simp only [Except.map, Node.rewrite, hsame]

theorem walkRules_rewrite {start : Path} (h : t.Untouched f cwd (start.child ".gitignore")) :
    (t.rewrite f).walkRules cwd config start = t.walkRules cwd config start := by
  simp only [walkRules, isDir_rewrite, ignoreSpec?_rewrite h]

theorem isTooDeep_rewrite {start : Path} (h : t.Untouched f cwd (start.child ".gitignore")) :
    (t.rewrite f).isTooDeep cwd config start = t.isTooDeep cwd config start := by
  unfold isTooDeep
  rw [walkRules_rewrite h, locate_rewrite]
  cases t.walkRules cwd config start with
  | error fault => rfl
  | ok rules =>
    cases t.locate cwd start with
    | error e => rfl
    | ok x => simp only [Except.map, depth_rewrite]

theorem stepsFrom_rewrite {start : Path} (h : t.Untouched f cwd (start.child ".gitignore")) :
    (t.rewrite f).stepsFrom cwd config start = t.stepsFrom cwd config start := by
  simp only [stepsFrom, visitsUnder, pathExists_rewrite, walkRules_rewrite h, visits_rewrite,
    isTooDeep_rewrite h]

/-- A run over rewritten files takes the same steps, and stops at the same fault. -/
theorem steps_rewrite {starts : List Path}
    (h : ∀ start ∈ starts, t.Untouched f cwd (start.child ".gitignore")) :
    (t.rewrite f).steps cwd config starts = t.steps cwd config starts := by
  induction starts with
  | nil => rfl
  | cons start rest ih =>
    obtain ⟨hstart, hrest⟩ := List.forall_mem_cons.mp h
    simp only [steps, stepsFrom_rewrite hstart, ih hrest]

theorem verdictOn_path (t : FileTree) (cwd : List String) (root : String) (p : Path) :
    (t.verdictOn cwd root p).path = p := by
  unfold verdictOn
  cases t.importsOf cwd p <;> rfl

theorem verdictOn_rewrite {p : Path} (h : t.Untouched f cwd p) :
    (t.rewrite f).verdictOn cwd root p = t.verdictOn cwd root p := by
  simp only [verdictOn, importsOf, read_rewrite h]

/-- The second verdict is on the same path as the first, and it is the first if its file has not been
rewritten. -/
def Agrees (f : List String → Bytes → Bytes) (t : FileTree) (cwd : List String) (v v' : Verdict) :
    Prop :=
  v'.path = v.path ∧ (t.Untouched f cwd v.path → v' = v)

theorem verdicts_rewrite (ss : List Step) :
    List.Forall₂ (t.Agrees f cwd) (ss.filterMap (t.stepVerdict? cwd root))
      (ss.filterMap ((t.rewrite f).stepVerdict? cwd root)) := by
  induction ss with
  | nil => exact .nil
  | cons s rest ih =>
    cases s with
    | missing start => exact .cons ⟨rfl, fun _ => rfl⟩ ih
    | visit v =>
      cases v with
      | goFile p =>
        refine .cons ⟨?_, fun huntouched => ?_⟩ ih
        · rw [verdictOn_path, verdictOn_path]
        · rw [verdictOn_path] at huntouched
          exact verdictOn_rewrite huntouched
      | skippedVendor p => exact ih
      | skippedDirectory p => exact ih
      | skippedFile p => exact ih

theorem runCheck_rewrite {starts : List Path} {vs : List Verdict}
    (h : ∀ start ∈ starts, t.Untouched f cwd (start.child ".gitignore"))
    (hrun : t.runCheck cwd root config starts = .ok vs) :
    ∃ vs', (t.rewrite f).runCheck cwd root config starts = .ok vs' ∧
      List.Forall₂ (t.Agrees f cwd) vs vs' := by
  unfold runCheck at hrun ⊢
  rw [steps_rewrite h]
  cases hs : t.steps cwd config starts with
  | mk ss fault? =>
    rw [hs] at hrun
    cases fault? with
    | some fault => cases hrun
    | none =>
      cases hrun
      exact ⟨_, rfl, verdicts_rewrite ss⟩

/-- What ends a run that comes to a start path: a name that no file can have, or a pattern that cannot
be read. -/
inductive Stops (t : FileTree) (cwd : List String) (config : Config) (start : Path) : Fault → Prop where
  | start (h : t.locate cwd start = .error .nameTooLong) : Stops t cwd config start .longName
  | ignoreName (h : t.locate cwd (start.child ".gitignore") = .error .nameTooLong) :
      Stops t cwd config start .longName
  | exclude {e : PatternError} (h : excludeSpec? config.exclude = .error e) :
      Stops t cwd config start (.badPattern e)
  | ignoreFile {content : Bytes} {e : PatternError}
      (hread : t.read cwd (start.child ".gitignore") = .ok content)
      (h : PatternSpec.ofLines (ignoreLines content) = .error e) :
      Stops t cwd config start (.badPattern e)
  | depth {rules : WalkRules} {here : List String} {n : Node}
      (hrules : t.walkRules cwd config start = .ok rules)
      (hfound : t.locate cwd start = .ok (here, n))
      (h : t.Descends rules (.top here start) n (maxDepth + 1)) : Stops t cwd config start .tooDeep

variable {start : Path} {fault : Fault}

theorem locate_of_find?_error {p : Path} (h : t.find? cwd p = .error fault) :
    fault = .longName ∧ t.locate cwd p = .error .nameTooLong := by
  unfold find? at h
  cases hl : t.locate cwd p with
  | ok x => simp [hl] at h
  | error e => cases e <;> simp_all

theorem stops_of_find?_error (h : t.find? cwd start = .error fault) :
    t.Stops cwd config start fault := by
  obtain ⟨rfl, hl⟩ := locate_of_find?_error h
  exact .start hl

theorem stops_of_ignoreSpec?_error (h : t.ignoreSpec? cwd start = .error fault) :
    t.Stops cwd config start fault := by
  unfold ignoreSpec? at h
  cases hf : t.find? cwd (start.child ".gitignore") with
  | error fault' =>
    simp only [hf, bind, Except.bind, Except.error.injEq] at h
    subst h
    obtain ⟨rfl, hl⟩ := locate_of_find?_error hf
    exact .ignoreName hl
  | ok n? =>
    simp only [hf, bind, Except.bind] at h
    split at h
    · rename_i content
      have hread : t.read cwd (start.child ".gitignore") = .ok content := by
        unfold find? at hf
        unfold read
        cases hl : t.locate cwd (start.child ".gitignore") with
        | error e => cases e <;> simp [hl] at hf
        | ok x =>
          obtain ⟨place, n⟩ := x
          simp only [hl, Except.ok.injEq, Option.some.injEq] at hf
          subst hf
          rfl
      cases hp : PatternSpec.ofLines (ignoreLines content) with
      | ok spec => simp [hp, Except.map, Except.mapError] at h
      | error e =>
        simp only [hp, Except.map, Except.mapError, Except.error.injEq] at h
        subst h
        exact .ignoreFile hread hp
    · cases h

theorem stops_of_map_find?_error {α : Type} {g : Option Node → α}
    (h : (t.find? cwd start).map g = .error fault) : t.Stops cwd config start fault := by
  cases hf : t.find? cwd start with
  | ok n? => simp [hf, Except.map] at h
  | error e =>
    rw [hf] at h
    cases h
    exact stops_of_find?_error hf

theorem walkRules_eq (t : FileTree) (cwd : List String) (config : Config) (start : Path) :
    t.walkRules cwd config start =
      (if config.gitignore then t.isDir cwd start else .ok false) >>= fun hasIgnore =>
      (if hasIgnore then t.ignoreSpec? cwd start else .ok none) >>= fun ignore =>
      (excludeSpec? config.exclude).mapError .badPattern >>= fun exclude =>
      .ok { vendor := config.vendor, ignored := ignoredBy ignore exclude } := by
  unfold walkRules
  cases config.gitignore with
  | false => rfl
  | true =>
    simp only [if_true]
    congr 1
    funext hasIgnore
    cases hasIgnore <;> rfl

theorem stops_of_walkRules_error (h : t.walkRules cwd config start = .error fault) :
    t.Stops cwd config start fault := by
  rw [walkRules_eq] at h
  rcases bind_eq_error_cases h with hdir | ⟨hasIgnore, -, h⟩
  · split_ifs at hdir
    exact stops_of_map_find?_error hdir
  rcases bind_eq_error_cases h with hignore | ⟨ignore, -, h⟩
  · split_ifs at hignore
    exact stops_of_ignoreSpec?_error hignore
  rcases bind_eq_error_cases h with hexclude | ⟨exclude, -, h⟩
  · cases he : excludeSpec? config.exclude with
    | ok spec? => simp [he, Except.mapError] at hexclude
    | error e =>
      simp only [he, Except.mapError, Except.error.injEq] at hexclude
      subst hexclude
      exact .exclude he
  · cases h

theorem stops_of_stepsFrom_error (h : t.stepsFrom cwd config start = .error fault) :
    t.Stops cwd config start fault := by
  rcases stepsFrom_error_cases h with hexists | ⟨hfound, hvisits⟩ | ⟨hdeep, rfl⟩
  · exact stops_of_map_find?_error hexists
  · rcases bind_eq_error_cases hvisits with hrules | ⟨rules, -, hvisits⟩
    · exact stops_of_walkRules_error hrules
    · -- A start that exists is found, and from there a walk goes on.
      unfold pathExists find? at hfound
      unfold visits at hvisits
      cases hl : t.locate cwd start with
      | error e => cases e <;> simp [hl, Except.map] at hfound
      | ok x =>
        have hnul : ¬ start.hasNul := by
          intro hnul
          rw [locate, if_pos hnul] at hl
          cases hl
        obtain ⟨here, n⟩ := x
        cases n <;> simp [hl, hnul] at hvisits
  · obtain ⟨rules, here, n, hrules, hlocate, hdown⟩ := isTooDeep_iff.mp hdeep
    exact .depth hrules hlocate hdown

theorem stops_of_runCheck_error {starts : List Path}
    (h : t.runCheck cwd root config starts = .error fault) :
    ∃ start ∈ starts, t.Stops cwd config start fault := by
  have hsteps : (t.steps cwd config starts).2 = some fault := by
    unfold runCheck at h
    split at h <;> simp_all
  clear h
  induction starts with
  | nil => cases hsteps
  | cons start rest ih =>
    rw [steps] at hsteps
    cases hs : t.stepsFrom cwd config start with
    | error e =>
      simp only [hs, Option.some.injEq] at hsteps
      subst hsteps
      exact ⟨start, List.mem_cons_self, stops_of_stepsFrom_error hs⟩
    | ok ss =>
      simp only [hs] at hsteps
      obtain ⟨start', hmem, hstops⟩ := ih hsteps
      exact ⟨start', List.mem_cons_of_mem _ hmem, hstops⟩

theorem steps_append (t : FileTree) (cwd : List String) (config : Config) (ps qs : List Path) :
    t.steps cwd config (ps ++ qs) =
      match t.steps cwd config ps with
      | (ss, some fault) => (ss, some fault)
      | (ss, none) => (ss ++ (t.steps cwd config qs).1, (t.steps cwd config qs).2) := by
  induction ps with
  | nil => rfl
  | cons p ps ih =>
    rw [List.cons_append, steps, steps, ih]
    cases t.stepsFrom cwd config p with
    | error fault => rfl
    | ok first =>
      cases t.steps cwd config ps with
      | mk ss fault? => cases fault? <;> simp

theorem runCheck_append (t : FileTree) (cwd : List String) (root : String) (config : Config)
    (ps qs : List Path) :
    t.runCheck cwd root config (ps ++ qs) = do
      let vs ← t.runCheck cwd root config ps
      let ws ← t.runCheck cwd root config qs
      return vs ++ ws := by
  unfold runCheck
  rw [steps_append]
  cases t.steps cwd config ps with
  | mk ss fault? =>
    cases fault? with
    | some fault => rfl
    | none =>
      cases t.steps cwd config qs with
      | mk more fault? =>
        cases fault? with
        | some fault => rfl
        | none => simp [bind, Except.bind, pure, Except.pure]

/-- A verdict blames the grouping or says why the imports are not known, not both. -/
theorem runCheck_violation_or_error {starts : List Path} {vs : List Verdict}
    (h : t.runCheck cwd root config starts = .ok vs) :
    ∀ v ∈ vs, v.violation = none ∨ v.error = none := by
  unfold runCheck at h
  split at h
  · cases h
  · cases h
    intro v hv
    obtain ⟨s, -, hs⟩ := List.mem_filterMap.mp hv
    cases s with
    | missing start =>
      cases hs
      exact .inl rfl
    | visit visit =>
      obtain ⟨p, -, rfl⟩ := Option.map_eq_some_iff.mp hs
      unfold verdictOn
      cases t.importsOf cwd p with
      | ok records => exact .inr rfl
      | error e => exact .inl rfl

def replace (t : FileTree) (file : List String) (content : Bytes) : FileTree :=
  t.rewrite fun place old => if place = file then content else old

def LeadsTo (t : FileTree) (cwd : List String) (p : Path) (place : List String) : Prop :=
  ∃ n, t.locate cwd p = .ok (place, n)

theorem untouched_of_not_leadsTo {p : Path} {file : List String} (new : Bytes)
    (h : ¬ t.LeadsTo cwd p file) :
    t.Untouched (fun place old => if place = file then new else old) cwd p := by
  rintro place n hl ⟨content, -, hne⟩
  rw [ne_eq, ite_eq_right_iff, not_forall] at hne
  obtain ⟨rfl, -⟩ := hne
  exact h ⟨n, hl⟩

/-- What a file holds bears on the verdicts on paths that lead to it and on nothing else in a run. Only
names and patterns end a run, and a run is made up of the runs over parts of its start paths. -/
theorem runCheck_independent (t : FileTree) (cwd : List String) (root : String) (config : Config)
    (starts : List Path) :
    (∀ file old new vs, t.nodeAt file = some (.file old) →
      (∀ start ∈ starts, ¬ t.LeadsTo cwd (start.child ".gitignore") file) →
      t.runCheck cwd root config starts = .ok vs →
      ∃ vs', (t.replace file new).runCheck cwd root config starts = .ok vs' ∧
        List.Forall₂ (fun v v' => v'.path = v.path ∧ (¬ t.LeadsTo cwd v.path file → v' = v))
          vs vs') ∧
    (∀ fault, t.runCheck cwd root config starts = .error fault →
      ∃ start ∈ starts, t.Stops cwd config start fault) ∧
    (∀ vs, t.runCheck cwd root config starts = .ok vs →
      ∀ v ∈ vs, v.violation = none ∨ v.error = none) ∧
    ∀ more, t.runCheck cwd root config (starts ++ more) = do
      let vs ← t.runCheck cwd root config starts
      let ws ← t.runCheck cwd root config more
      return vs ++ ws := by
  refine ⟨?_, fun fault h => stops_of_runCheck_error h,
    fun vs h => runCheck_violation_or_error h, fun more => runCheck_append t cwd root config _ _⟩
  intro file old new vs _ hignore hrun
  obtain ⟨vs', hrun', hagrees⟩ :=
    runCheck_rewrite (fun start hs => untouched_of_not_leadsTo new (hignore start hs)) hrun
  refine ⟨vs', hrun', hagrees.imp fun v v' hv => ⟨hv.1, fun hnot => ?_⟩⟩
  exact hv.2 (untouched_of_not_leadsTo new hnot)

def linkedTree : FileTree where
  entries := [("p", .dir [("a.go", .file []), ("b.go", .file [112])]), ("l.go", .link "p/a.go")]

def IsPlain (name : String) : Prop :=
  (name == ".") = false ∧ (name == "..") = false ∧ ¬ maxNameSize < name.utf8ByteSize

instance (name : String) : Decidable (IsPlain name) := inferInstanceAs (Decidable (_ ∧ _ ∧ _))

variable {links : Nat} {here rest : List String} {name : String}

theorem locateFrom_none (h : IsPlain name) (hn : t.nodeAt (here ++ [name]) = none) :
    t.locateFrom links here (name :: rest) = .error .notFound := by
  rw [locateFrom, if_neg (by simp [h.1]), if_neg (by simp [h.2.1]), if_neg h.2.2, hn]

theorem locateFrom_dir (h : IsPlain name) {entries : List (String × Node)}
    (hn : t.nodeAt (here ++ [name]) = some (.dir entries)) :
    t.locateFrom links here (name :: rest) = t.locateFrom links (here ++ [name]) rest := by
  rw [locateFrom, if_neg (by simp [h.1]), if_neg (by simp [h.2.1]), if_neg h.2.2, hn]

theorem locateFrom_file (h : IsPlain name) {content : Bytes}
    (hn : t.nodeAt (here ++ [name]) = some (.file content)) :
    t.locateFrom links here (name :: rest) =
      if rest.isEmpty then .ok (here ++ [name], .file content) else .error .notDirectory := by
  rw [locateFrom, if_neg (by simp [h.1]), if_neg (by simp [h.2.1]), if_neg h.2.2, hn]

theorem locateFrom_link (h : IsPlain name) {target : String}
    (hn : t.nodeAt (here ++ [name]) = some (.link target)) :
    t.locateFrom (links + 1) here (name :: rest) =
      t.locateFrom links (linkStart here target) (linkParts target ++ rest) := by
  rw [locateFrom, if_neg (by simp [h.1]), if_neg (by simp [h.2.1]), if_neg h.2.2, hn]

theorem linkedTree_p : linkedTree.locate [] ⟨.relative, ["p"]⟩ =
    .ok (["p"], .dir [("a.go", .file []), ("b.go", .file [112])]) := by
  rw [locate, if_neg (by decide +kernel), if_neg (by decide +kernel)]
  refine (locateFrom_dir (by decide +kernel) rfl).trans ?_
  rw [locateFrom]
  rfl

theorem linkedTree_b : linkedTree.locate [] ⟨.relative, ["p", "b.go"]⟩ =
    .ok (["p", "b.go"], .file [112]) := by
  rw [locate, if_neg (by decide +kernel), if_neg (by decide +kernel)]
  refine (locateFrom_dir (by decide +kernel) rfl).trans ?_
  exact locateFrom_file (by decide +kernel) rfl

theorem linkedTree_ignore :
    linkedTree.locate [] (Path.child ⟨.relative, ["p"]⟩ ".gitignore") = .error .notFound := by
  have hpath : Path.child ⟨.relative, ["p"]⟩ ".gitignore" = ⟨.relative, ["p", ".gitignore"]⟩ := by
    decide +kernel
  rw [hpath, locate, if_neg (by decide +kernel), if_neg (by decide +kernel)]
  refine (locateFrom_dir (by decide +kernel) rfl).trans ?_
  exact locateFrom_none (by decide +kernel) rfl

theorem linkedTree_l (below : List String) (h : below = [] ∨ below = [".gitignore"]) :
    linkedTree.locate [] ⟨.relative, "l.go" :: below⟩ =
      if below.isEmpty then .ok (["p", "a.go"], .file []) else .error .notDirectory := by
  have hparts : linkParts "p/a.go" = ["p", "a.go"] := by decide +kernel
  have hstart : linkStart [] "p/a.go" = [] := by decide +kernel
  have hnul : ¬ (⟨.relative, "l.go" :: below⟩ : Path).hasNul := by
    rcases h with rfl | rfl <;> decide +kernel
  have hsize : ¬ maxPathSize < (⟨.relative, "l.go" :: below⟩ : Path).toString.utf8ByteSize := by
    rcases h with rfl | rfl <;> decide +kernel
  rw [locate, if_neg hnul, if_neg hsize]
  refine (locateFrom_link (by decide +kernel) rfl).trans ?_
  rw [hparts]
  exact (locateFrom_dir (by decide +kernel) rfl).trans (locateFrom_file (by decide +kernel) rfl)

theorem linkedTree_steps :
    linkedTree.steps [] {} [⟨.relative, ["p"]⟩, ⟨.relative, ["l.go"]⟩] =
      ([.visit (.goFile ⟨.relative, ["p", "a.go"]⟩), .visit (.goFile ⟨.relative, ["p", "b.go"]⟩),
        .visit (.goFile ⟨.relative, ["l.go"]⟩)], none) := by
  have hignore : linkedTree.ignoreSpec? [] ⟨.relative, ["p"]⟩ = .ok none := by
    rw [ignoreSpec?, find?, linkedTree_ignore]
    rfl
  have hdir : linkedTree.walkRules [] {} ⟨.relative, ["p"]⟩ =
      .ok ⟨"vendor", ignoredBy none none⟩ := by
    rw [walkRules_eq, isDir, find?, linkedTree_p]
    show linkedTree.ignoreSpec? [] ⟨.relative, ["p"]⟩ >>= _ = _
    rw [hignore]
    rfl
  have hfile : linkedTree.walkRules [] {} ⟨.relative, ["l.go"]⟩ =
      .ok ⟨"vendor", ignoredBy none none⟩ := by
    rw [walkRules_eq, isDir, find?, linkedTree_l [] (.inl rfl)]
    rfl
  have hvisits : linkedTree.visits [] ⟨.relative, ["p"]⟩ ⟨"vendor", ignoredBy none none⟩ =
      .ok [.goFile ⟨.relative, ["p", "a.go"]⟩, .goFile ⟨.relative, ["p", "b.go"]⟩] := by
    have hsorted : (Node.dir [("a.go", .file []), ("b.go", .file [112])]).sorted =
        .dir [("a.go", .file []), ("b.go", .file [112])] := by
      rw [Node.sorted_dir, Node.ordered, Node.sortedEntries_eq, List.mergeSort_of_pairwise]
      · rfl
      · decide +kernel
    rw [visits, if_neg (by decide +kernel), linkedTree_p]
    show Except.ok (linkedTree.dirVisits _ (.top ["p"] _) (Node.sorted _)) = _
    rw [hsorted]
    decide +kernel
  have hlink : linkedTree.visits [] ⟨.relative, ["l.go"]⟩ ⟨"vendor", ignoredBy none none⟩ =
      .ok [.goFile ⟨.relative, ["l.go"]⟩] := by
    rw [visits, if_neg (by decide +kernel), linkedTree_l [] (.inl rfl)]
    rfl
  simp only [steps, stepsFrom, pathExists, find?, linkedTree_p, linkedTree_l [] (.inl rfl),
    visitsUnder, isTooDeep, hdir, hfile, hvisits, hlink, Except.map, bind, Except.bind]
  rfl

/-- Whatever the first file becomes, only what is said of it and of the link to it can change. -/
theorem runCheck_independent_linkedTree :
    ∃ v w, (linkedTree.replace ["p", "a.go"] [40, 0, 255]).runCheck [] "example.org" {}
        [⟨.relative, ["p"]⟩, ⟨.relative, ["l.go"]⟩] =
      .ok [v, linkedTree.verdictOn [] "example.org" ⟨.relative, ["p", "b.go"]⟩, w] ∧
      v.path = ⟨.relative, ["p", "a.go"]⟩ ∧ w.path = ⟨.relative, ["l.go"]⟩ := by
  have hrun : linkedTree.runCheck [] "example.org" {}
      [⟨.relative, ["p"]⟩, ⟨.relative, ["l.go"]⟩] =
        .ok [linkedTree.verdictOn [] "example.org" ⟨.relative, ["p", "a.go"]⟩,
          linkedTree.verdictOn [] "example.org" ⟨.relative, ["p", "b.go"]⟩,
          linkedTree.verdictOn [] "example.org" ⟨.relative, ["l.go"]⟩] := by
    rw [runCheck, linkedTree_steps]
    rfl
  have hignore : ∀ start ∈ [(⟨.relative, ["p"]⟩ : Path), ⟨.relative, ["l.go"]⟩],
      ¬ linkedTree.LeadsTo [] (start.child ".gitignore") ["p", "a.go"] := by
    have hpath : Path.child ⟨.relative, ["l.go"]⟩ ".gitignore" =
        ⟨.relative, ["l.go", ".gitignore"]⟩ := by decide +kernel
    simp [LeadsTo, linkedTree_ignore, hpath, linkedTree_l [".gitignore"] (.inr rfl)]
  obtain ⟨vs', hrun', hagrees⟩ := (runCheck_independent linkedTree [] "example.org" {}
    [⟨.relative, ["p"]⟩, ⟨.relative, ["l.go"]⟩]).1 ["p", "a.go"] [] [40, 0, 255] _ rfl hignore hrun
  cases hagrees with | cons hfirst hagrees =>
  cases hagrees with | cons hsecond hagrees =>
  cases hagrees with | cons hthird hagrees =>
  cases hagrees
  have hsame := hsecond.2 (by simp [LeadsTo, verdictOn_path, linkedTree_b])
  rw [hsame] at hrun'
  exact ⟨_, _, hrun', hfirst.1.trans (verdictOn_path ..), hthird.1.trans (verdictOn_path ..)⟩

end FileTree

end ImportGroups
