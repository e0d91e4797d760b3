import ImportGroups.Proofs.BadPatterns
import ImportGroups.Proofs.Independence
import ImportGroups.Proofs.Pruning

/-!
Excluding more, and excluding against an ignore file.

Of the patterns in a list the last that applies decides, so patterns without a mark of negation that
come last only add to what is matched. A walk that leaves out more comes to fewer files, in the same
order, also because it enters fewer directories. An exclude pattern never brings back what the ignore
file hides: the two lists are asked one after the other, each for itself.
-/

namespace ImportGroups

namespace Pattern

theorem negated_of_ofString {line : String} {p : Pattern} (hmark : line.toList.head? ≠ some '!')
    (h : ofString line = .ok p) : p.negated = false := by
  have hbegin := trimEnd_isPrefix line.toList
  unfold ofString ofChars at h
  split at h
  · cases h
    rfl
  · cases h
    rfl
  · cases h
    rfl
  · rename_i text htrim
    rw [htrim] at hbegin
    obtain ⟨rest, hrest⟩ := hbegin
    simp [← hrest] at hmark
  · obtain ⟨rule, -, rfl⟩ := map_eq_ok_iff.mp h
    rfl

end Pattern

namespace PatternSpec

theorem ofLines_append (lines more : List String) :
    ofLines (lines ++ more) = ofLines lines >>= fun spec =>
      (ofLines more).map fun spec' => ⟨spec.patterns ++ spec'.patterns⟩ := by
  unfold ofLines
  rw [List.filter_append, List.mapM_append]
  cases (lines.filter (· != "")).mapM Pattern.ofString with
  | error e => rfl
  | ok ps => cases (more.filter (· != "")).mapM Pattern.ofString <;> rfl

theorem ofLines_ok {lines : List String} (h : ∀ line ∈ lines, ∃ p, Pattern.ofString line = .ok p) :
    ∃ spec, ofLines lines = .ok spec := by
  cases hlines : ofLines lines with
  | ok spec => exact ⟨spec, rfl⟩
  | error e =>
    obtain ⟨before, line, after, rfl, -, hline⟩ := ofLines_eq_error_iff.mp hlines
    obtain ⟨p, hp⟩ := h line (by simp)
    rw [hp] at hline
    cases hline

/-- Patterns at the end that take nothing back only add to what is matched. -/
theorem ignores_append {patterns more : List Pattern} (h : ∀ p ∈ more, p.negated = false)
    {path : String} (hignored : (PatternSpec.mk patterns).ignores path = true) :
    (PatternSpec.mk (patterns ++ more)).ignores path = true := by
  unfold ignores at hignored ⊢
  rw [List.reverse_append, List.find?_append]
  cases hfind : more.reverse.find? (·.applies path.toList) with
  | none => simpa [hfind] using hignored
  | some p =>
    have hmem : p ∈ more := by simpa using List.mem_of_find?_eq_some hfind
    simp [h p hmem]

end PatternSpec

def matchedPaths {ε : Type} (outcome : Except ε (Option PatternSpec)) : Except ε (String → Bool) :=
  outcome.map fun spec? path => spec?.any (·.ignores path)

theorem matchedPaths_excludeSpec? (patterns : List String) :
    matchedPaths (excludeSpec? patterns) =
      (PatternSpec.ofLines patterns).map PatternSpec.ignores := by
  cases patterns with
  | nil => rfl
  | cons line lines =>
    rw [excludeSpec?]
    · cases PatternSpec.ofLines (line :: lines) <;> rfl
    · simp

theorem excludeSpec?_append {patterns extra : List String} {spec? : Option PatternSpec}
    (hok : ∀ line ∈ extra, ∃ p, Pattern.ofString line = .ok p)
    (hmark : ∀ line ∈ extra, line.toList.head? ≠ some '!')
    (h : excludeSpec? patterns = .ok spec?) :
    ∃ more?, excludeSpec? (patterns ++ extra) = .ok more? ∧
      ∀ path, spec?.any (·.ignores path) = true → more?.any (·.ignores path) = true := by
  have hmatched := matchedPaths_excludeSpec? patterns
  rw [h] at hmatched
  obtain ⟨spec, hspec, hany⟩ := map_eq_ok_iff.mp hmatched.symm
  obtain ⟨extraSpec, hextra⟩ := PatternSpec.ofLines_ok hok
  have hplain : ∀ p ∈ extraSpec.patterns, p.negated = false := by
    intro p hp
    obtain ⟨line, hline, hof⟩ := PatternSpec.mem_patterns_ofLines hextra hp
    exact Pattern.negated_of_ofString (hmark line hline) hof
  have happend : PatternSpec.ofLines (patterns ++ extra) =
      .ok ⟨spec.patterns ++ extraSpec.patterns⟩ := by
    rw [PatternSpec.ofLines_append, hspec, hextra]
    rfl
  have hmatched' := matchedPaths_excludeSpec? (patterns ++ extra)
  rw [happend] at hmatched'
  obtain ⟨more?, hmore, hmoreAny⟩ := map_eq_ok_iff.mp hmatched'
  refine ⟨more?, hmore, ?_⟩
  intro path hpath
  have hignored : spec.ignores path = true := (congrFun hany path).trans hpath
  exact (congrFun hmoreAny path).trans (PatternSpec.ignores_append hplain hignored)

theorem excludeSpec?_append_error {patterns extra : List String} {e : PatternError}
    (h : excludeSpec? patterns = .error e) : excludeSpec? (patterns ++ extra) = .error e := by
  rw [excludeSpec?_eq_error_iff] at h ⊢
  obtain ⟨before, line, after, rfl, hbefore, hline⟩ := h
  exact ⟨before, line, after ++ extra, by simp, hbefore, hline⟩

/-- The patterns match the file or a directory on the way to it. -/
def PatternSpec.Hides (spec : PatternSpec) (dirs : List String) (f : String) : Prop :=
  spec.ignores ("/".intercalate (dirs ++ [f])) = true ∨
    ∃ ds, ds <+: dirs ∧ ds ≠ [] ∧ spec.ignores ("/".intercalate ds ++ "/") = true

theorem ListsFiles.mem_fileBelow_iff {paths : List Path} {shown : Path}
    {files : List String → String → Prop} (h : ListsFiles paths shown files) {dirs : List String}
    {f : String} : shown.fileBelow (dirs, f) ∈ paths ↔ files dirs f := by
  obtain ⟨found, rfl, hmem, -⟩ := h
  rw [List.mem_map_of_injective shown.fileBelow_injective, hmem]

/-- What is left out by the rules is left out by `more` as well. -/
structure WalkRules.Within (rules more : WalkRules) : Prop where
  vendor : more.vendor = rules.vendor
  ignored : ∀ path, rules.ignored path = true → more.ignored path = true

namespace FileTree

variable {t : FileTree} {rules more : WalkRules} {cwd : List String} {config : Config} {start : Path}
  {fault : Fault}

theorem leavesOut_of_within (h : rules.Within more) {w : WalkPlace} {name : String}
    (hout : w.leavesOut rules name = true) : w.leavesOut more name = true := by
  unfold WalkPlace.leavesOut at hout ⊢
  rw [h.vendor]
  simp only [Bool.or_eq_true] at hout ⊢
  rcases hout with hout | hout
  · exact .inl hout
  · exact .inr (h.ignored _ hout)

theorem ownVisits_sublist (h : rules.Within more) (w : WalkPlace) (entries : List (String × Node)) :
    ((t.ownVisits more w entries).filterMap Visit.file?).Sublist
      ((t.ownVisits rules w entries).filterMap Visit.file?) := by
  rw [ownVisits_files, ownVisits_files]
  apply List.Sublist.map
  apply List.monotone_filter_right
  intro e he
  simp only [Bool.and_eq_true, Bool.not_eq_true'] at he ⊢
  obtain ⟨hleads, hgo, hkept⟩ := he
  refine ⟨hleads, hgo, ?_⟩
  by_contra hignored
  rw [h.ignored _ (Bool.not_eq_false _ ▸ hignored)] at hkept
  cases hkept

theorem subVisits_sublist (h : rules.Within more) (w : WalkPlace) {entries : List (String × Node)}
    (hdirs : ∀ e ∈ entries, ∀ w : WalkPlace, ((t.dirVisits more w e.2).filterMap Visit.file?).Sublist
      ((t.dirVisits rules w e.2).filterMap Visit.file?)) :
    ((t.subVisits more w entries).filterMap Visit.file?).Sublist
      ((t.subVisits rules w entries).filterMap Visit.file?) := by
  induction entries with
  | nil => exact List.Sublist.refl _
  | cons e rest ih =>
    obtain ⟨name, n⟩ := e
    obtain ⟨hfirst, hrest⟩ := List.forall_mem_cons.mp hdirs
    rw [subVisits, subVisits, List.filterMap_append, List.filterMap_append]
    apply List.Sublist.append _ (ih hrest)
    by_cases hmore : w.leavesOut more name = true
    · -- whatever the other walk finds in there is missing here
      rw [if_pos hmore]
      exact List.nil_sublist _
    · have hrules : ¬ w.leavesOut rules name = true := fun hout => hmore (leavesOut_of_within h hout)
      rw [if_neg hmore, if_neg hrules]
      exact hfirst (w.enter name)

theorem dirVisits_sublist (h : rules.Within more) (n : Node) (w : WalkPlace) :
    ((t.dirVisits more w n).filterMap Visit.file?).Sublist
      ((t.dirVisits rules w n).filterMap Visit.file?) := by
  induction n using Node.entriesInduction generalizing w with
  | file content => exact List.Sublist.refl _
  | link target => exact List.Sublist.refl _
  | dir entries ih =>
    rw [dirVisits, dirVisits]
    split_ifs
    · rw [List.filterMap_append, List.filterMap_append]
      exact (ownVisits_sublist h w entries).append (subVisits_sublist h w ih)
    · exact List.Sublist.refl _

theorem visits_sublist (h : rules.Within more) {vs vs' : List Visit}
    (hvisits : t.visits cwd start rules = .ok vs) (hvisits' : t.visits cwd start more = .ok vs') :
    (vs'.filterMap Visit.file?).Sublist (vs.filterMap Visit.file?) := by
  unfold visits at hvisits hvisits'
  split_ifs at hvisits hvisits'
  cases hfound : t.locate cwd start with
  | error e =>
    rw [hfound] at hvisits hvisits'
    cases e <;> cases hvisits <;> cases hvisits' <;> exact List.Sublist.refl _
  | ok found =>
    obtain ⟨here, n⟩ := found
    rw [hfound] at hvisits hvisits'
    cases n with
    | file content =>
      cases hvisits
      cases hvisits'
      exact List.Sublist.refl _
    | link target =>
      cases hvisits
      cases hvisits'
      exact dirVisits_sublist h _ _
    | dir entries =>
      cases hvisits
      cases hvisits'
      exact dirVisits_sublist h _ _

theorem visits_error (h : t.visits cwd start rules = .error fault) (other : WalkRules) :
    t.visits cwd start other = .error fault := by
  unfold visits at h ⊢
  split_ifs at h ⊢
  · exact h
  · split at h
    · cases h
    · cases h
    · exact h
    · cases h

theorem visits_ok {vs : List Visit} (h : t.visits cwd start rules = .ok vs) (other : WalkRules) :
    ∃ vs', t.visits cwd start other = .ok vs' := by
  cases hother : t.visits cwd start other with
  | ok vs' => exact ⟨vs', rfl⟩
  | error fault =>
    rw [visits_error hother rules] at h
    cases h

theorem collect_ok_iff {files : List Path} : t.collect cwd config start = .ok files ↔
    ∃ rules vs, t.walkRules cwd config start = .ok rules ∧ t.visits cwd start rules = .ok vs ∧
      files = vs.filterMap Visit.file? := by
  rw [collect, visitsUnder, map_eq_ok_iff]
  constructor
  · rintro ⟨vs, hvs, rfl⟩
    obtain ⟨rules, hrules, hvs⟩ := bind_eq_ok_iff.mp hvs
    exact ⟨rules, vs, hrules, hvs, rfl⟩
  · rintro ⟨rules, vs, hrules, hvs, rfl⟩
    exact ⟨vs, bind_eq_ok_iff.mpr ⟨rules, hrules, hvs⟩, rfl⟩

/-- Of two configurations with rules for the walk, the one that leaves out more comes to fewer
files. -/
theorem collect_compare {config' : Config} {rules' : WalkRules} {files : List Path}
    (hrules : t.walkRules cwd config start = .ok rules)
    (hrules' : t.walkRules cwd config' start = .ok rules')
    (h : t.collect cwd config start = .ok files) :
    ∃ files', t.collect cwd config' start = .ok files' ∧
      (rules.Within rules' → files'.Sublist files) ∧ (rules'.Within rules → files.Sublist files') := by
  obtain ⟨_, vs, hwalk, hvisits, rfl⟩ := collect_ok_iff.mp h
  rw [hrules] at hwalk
  cases hwalk
  obtain ⟨vs', hvisits'⟩ := visits_ok hvisits rules'
  refine ⟨_, collect_ok_iff.mpr ⟨rules', vs', hrules', hvisits', rfl⟩, ?_, ?_⟩
  · intro hwithin
    exact visits_sublist hwithin hvisits hvisits'
  · intro hwithin
    exact visits_sublist hwithin hvisits' hvisits

def ignoreFor (t : FileTree) (cwd : List String) (gitignore : Bool) (start : Path) :
    Except Fault (Option PatternSpec) :=
  (if gitignore then t.isDir cwd start else .ok false) >>= fun hasIgnore =>
    if hasIgnore then t.ignoreSpec? cwd start else .ok none

theorem walkRules_eq_ignoreFor (t : FileTree) (cwd : List String) (config : Config) (start : Path) :
    t.walkRules cwd config start = t.ignoreFor cwd config.gitignore start >>= fun ignore =>
      (excludeSpec? config.exclude).mapError .badPattern >>= fun exclude =>
      .ok { vendor := config.vendor, ignored := ignoredBy ignore exclude } := by
  rw [walkRules_eq, ignoreFor, bind_assoc]

theorem walkRules_ok_iff : t.walkRules cwd config start = .ok rules ↔
    ∃ ignore exclude, t.ignoreFor cwd config.gitignore start = .ok ignore ∧
      excludeSpec? config.exclude = .ok exclude ∧
      rules = ⟨config.vendor, ignoredBy ignore exclude⟩ := by
  rw [walkRules_eq_ignoreFor]
  constructor
  · intro h
    obtain ⟨ignore, hignore, h⟩ := bind_eq_ok_iff.mp h
    obtain ⟨exclude, hexclude, h⟩ := bind_eq_ok_iff.mp h
    cases h
    exact ⟨ignore, exclude, hignore, mapError_eq_ok_iff.mp hexclude, rfl⟩
  · rintro ⟨ignore, exclude, hignore, hexclude, rfl⟩
    rw [hignore, hexclude]
    rfl

/-- A path that one of the specs matches is matched if each of them only gives way to one that
matches more. -/
theorem within_ignoredBy {vendor : String} {ignore ignore' exclude exclude' : Option PatternSpec}
    (hignore : ∀ path, ignore.any (·.ignores path) = true → ignore'.any (·.ignores path) = true)
    (hexclude : ∀ path, exclude.any (·.ignores path) = true → exclude'.any (·.ignores path) = true) :
    WalkRules.Within ⟨vendor, ignoredBy ignore exclude⟩ ⟨vendor, ignoredBy ignore' exclude'⟩ := by
  constructor
  · rfl
  · intro path hpath
    simp only [ignoredBy, Bool.or_eq_true] at hpath ⊢
    rcases hpath with hpath | hpath
    · exact .inl (hignore path hpath)
    · exact .inr (hexclude path hpath)

theorem walkRules_exclude_append {extra : List String}
    (hok : ∀ line ∈ extra, ∃ p, Pattern.ofString line = .ok p)
    (hmark : ∀ line ∈ extra, line.toList.head? ≠ some '!')
    (h : t.walkRules cwd config start = .ok rules) :
    ∃ more, t.walkRules cwd { config with exclude := config.exclude ++ extra } start = .ok more ∧
      rules.Within more := by
  obtain ⟨ignore, exclude, hignore, hexclude, rfl⟩ := walkRules_ok_iff.mp h
  obtain ⟨exclude', hexclude', hmore⟩ := excludeSpec?_append hok hmark hexclude
  exact ⟨_, walkRules_ok_iff.mpr ⟨ignore, exclude', hignore, hexclude', rfl⟩,
    within_ignoredBy (fun _ hpath => hpath) hmore⟩

theorem collect_error_of_exclude_append {extra : List String}
    (hok : ∀ line ∈ extra, ∃ p, Pattern.ofString line = .ok p)
    (hmark : ∀ line ∈ extra, line.toList.head? ≠ some '!')
    (h : t.collect cwd config start = .error fault) :
    t.collect cwd { config with exclude := config.exclude ++ extra } start = .error fault := by
  rw [collect, visitsUnder, map_eq_error_iff, bind_eq_error_iff] at h ⊢
  -- the ignore file is read first, then the patterns in their order, and only then the walk starts
  rcases h with h | ⟨rules, hrules, h⟩
  · left
    rw [walkRules_eq_ignoreFor, bind_eq_error_iff] at h ⊢
    rcases h with h | ⟨ignore, hignore, h⟩
    · exact .inl h
    · rcases bind_eq_error_iff.mp h with h | ⟨exclude, -, h⟩
      · obtain ⟨e, he, rfl⟩ := mapError_eq_error_iff.mp h
        refine .inr ⟨ignore, hignore, bind_eq_error_iff.mpr (.inl ?_)⟩
        exact mapError_eq_error_iff.mpr ⟨e, excludeSpec?_append_error he, rfl⟩
      · cases h
  · obtain ⟨more, hmore, -⟩ := walkRules_exclude_append hok hmark hrules
    exact .inr ⟨more, hmore, visits_error h more⟩

theorem ignoreFor_of_dir {here : List String} {entries : List (String × Node)}
    (hstart : t.locate cwd start = .ok (here, .dir entries)) :
    t.ignoreFor cwd true start = t.ignoreSpec? cwd start := by
  have hdir : t.isDir cwd start = .ok true := by
    rw [isDir, find?, hstart]
    rfl
  rw [ignoreFor, if_pos rfl, hdir]
  rfl

/-- Whatever is excluded or taken back, the walk comes to no file that the ignore file hides. -/
theorem not_mem_collect_of_hides {here : List String} {entries : List (String × Node)}
    {spec : PatternSpec} {files : List Path} (hwf : t.WellFormed)
    (hstart : t.locate cwd start = .ok (here, .dir entries)) (hon : config.gitignore = true)
    (hspec : t.ignoreSpec? cwd start = .ok (some spec))
    (h : t.collect cwd config start = .ok files) {dirs : List String} {f : String}
    (hhides : spec.Hides dirs f) : start.fileBelow (dirs, f) ∉ files := by
  intro hmem
  obtain ⟨rules, vs, hwalk, hvisits, rfl⟩ := collect_ok_iff.mp h
  obtain ⟨ignore, exclude, hignore, -, rfl⟩ := walkRules_ok_iff.mp hwalk
  rw [hon, ignoreFor_of_dir hstart, hspec] at hignore
  cases hignore
  obtain ⟨vs', hvisits', hlists⟩ :=
    listsFiles_visits hwf hstart ⟨config.vendor, ignoredBy (some spec) exclude⟩
  rw [hvisits] at hvisits'
  cases hvisits'
  have hin := hlists.mem_fileBelow_iff.mp hmem
  rcases hhides with hfile | ⟨ds, hds, hne, hdir⟩
  · have hkept := hin.kept
    simp [ignoredBy, hfile] at hkept
  · have hkept := hin.dirsKept ds hds hne
    simp [ignoredBy, hdir] at hkept

/-- More patterns that take nothing back only remove files from a walk, without the ignore file
there are only more, and whatever the patterns are, they bring back no file that it hides. -/
theorem excluding_only_removes (t : FileTree) (cwd : List String) (config : Config) (start : Path)
    (extra : List String) (hok : ∀ line ∈ extra, ∃ p, Pattern.ofString line = .ok p)
    (hmark : ∀ line ∈ extra, line.toList.head? ≠ some '!') :
    ∃ more opened, config.override { exclude := extra } = .ok more ∧
      config.override { noGitignore := true } = .ok opened ∧
      (∀ fault, t.collect cwd more start = .error fault ↔ t.collect cwd config start = .error fault) ∧
      ∀ files, t.collect cwd config start = .ok files →
        (∃ fewer, t.collect cwd more start = .ok fewer ∧ fewer.Sublist files) ∧
        (∃ all, t.collect cwd opened start = .ok all ∧ files.Sublist all) ∧
        (∃ shown, t.collect cwd { config with exclude := [] } start = .ok shown ∧
          files.Sublist shown) ∧
        ∀ here entries spec, t.WellFormed → t.locate cwd start = .ok (here, .dir entries) →
          config.gitignore = true → t.ignoreSpec? cwd start = .ok (some spec) →
          ∀ dirs f, spec.Hides dirs f → start.fileBelow (dirs, f) ∉ files := by
  refine ⟨{ config with exclude := config.exclude ++ extra }, { config with gitignore := false },
    by simp [Config.override], by simp [Config.override], ?_, ?_⟩
  · intro fault
    constructor
    · intro h
      cases hc : t.collect cwd config start with
      | ok files =>
        obtain ⟨rules, -, hrules, -⟩ := collect_ok_iff.mp hc
        obtain ⟨rules', hrules', -⟩ := walkRules_exclude_append hok hmark hrules
        obtain ⟨fewer, hfewer, -⟩ := collect_compare hrules hrules' hc
        rw [h] at hfewer
        cases hfewer
      | error fault' =>
        rw [collect_error_of_exclude_append hok hmark hc] at h
        exact h
    · exact collect_error_of_exclude_append hok hmark
  · intro files hfiles
    obtain ⟨rules, -, hrules, -⟩ := collect_ok_iff.mp hfiles
    obtain ⟨ignore, exclude, hignore, hexclude, rfl⟩ := walkRules_ok_iff.mp hrules
    refine ⟨?_, ?_, ?_, ?_⟩
    · obtain ⟨rules', hrules', hwithin⟩ := walkRules_exclude_append hok hmark hrules
      obtain ⟨fewer, hfewer, hsub, -⟩ := collect_compare hrules hrules' hfiles
      exact ⟨fewer, hfewer, hsub hwithin⟩
    · have hopen : t.walkRules cwd { config with gitignore := false } start =
          .ok ⟨config.vendor, ignoredBy none exclude⟩ :=
        walkRules_ok_iff.mpr ⟨none, exclude, rfl, hexclude, rfl⟩
      obtain ⟨all, hall, -, hsub⟩ := collect_compare hrules hopen hfiles
      exact ⟨all, hall, hsub (within_ignoredBy (by simp) fun _ hpath => hpath)⟩
    · have hbare : t.walkRules cwd { config with exclude := [] } start =
          .ok ⟨config.vendor, ignoredBy ignore none⟩ :=
        walkRules_ok_iff.mpr ⟨ignore, none, hignore, rfl, rfl⟩
      obtain ⟨shown, hshown, -, hsub⟩ := collect_compare hrules hbare hfiles
      exact ⟨shown, hshown, hsub (within_ignoredBy (fun _ hpath => hpath) (by simp))⟩
    · intro here entries spec hwf hstart hon hspec dirs f hhides
      exact not_mem_collect_of_hides hwf hstart hon hspec hfiles hhides

/-- A pattern that would take back what the ignore file hides does not, with or without another
pattern behind it. -/
theorem excluding_only_removes_ignoringTree :
    ∃ files fewer all, ignoringTree.collect [] { exclude := ["!out/"] } {} = .ok files ∧
      ignoringTree.collect [] { exclude := ["!out/", "a*"] } {} = .ok fewer ∧
      ignoringTree.collect [] { exclude := ["!out/"], gitignore := false } {} = .ok all ∧
      fewer.Sublist files ∧ files.Sublist all ∧ ⟨.relative, ["out", "b.go"]⟩ ∉ files := by
  have hextra : ∀ line ∈ ["a*"], ∃ p, Pattern.ofString line = .ok p := by
    intro line hline
    rw [List.mem_singleton.mp hline]
    have hpattern : Pattern.ofString "a*" =
        .ok ⟨false, .atoms [.leadingDirs, .char 'a', .run, .boundary]⟩ := by cbv
    exact ⟨_, hpattern⟩
  have hexclude : excludeSpec? ["!out/"] = .ok (some
      ⟨[⟨true, .atoms [.leadingDirs, .char 'o', .char 'u', .char 't', .char '/']⟩]⟩) := by cbv
  obtain ⟨vs, hvs, -⟩ := listsFiles_visits ignoringTree_wellFormed ignoringTree_locate
    ⟨"vendor", ignoredBy _ _⟩
  have hfiles : ignoringTree.collect [] { exclude := ["!out/"] } {} = .ok _ :=
    collect_ok_iff.mpr ⟨_, vs, walkRules_ok_iff.mpr ⟨_, _,
      (ignoreFor_of_dir ignoringTree_locate).trans ignoringTree_ignoreSpec, hexclude, rfl⟩, hvs, rfl⟩
  obtain ⟨more, opened, hmore, hopened, -, hall⟩ :=
    excluding_only_removes ignoringTree [] { exclude := ["!out/"] } {} ["a*"] hextra (by decide)
  cases hmore
  cases hopened
  obtain ⟨⟨fewer, hfewer, hsub⟩, ⟨all, hcollect, hsub'⟩, -, hhidden⟩ := hall _ hfiles
  refine ⟨_, fewer, all, hfiles, hfewer, hcollect, hsub, hsub', ?_⟩
  refine hhidden _ _ _ ignoringTree_wellFormed ignoringTree_locate rfl ignoringTree_ignoreSpec
    ["out"] "b.go" (.inr ⟨["out"], List.prefix_rfl, by simp, ?_⟩)
  decide

end FileTree

end ImportGroups
