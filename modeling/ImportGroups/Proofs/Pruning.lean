import ImportGroups.Check
import ImportGroups.Proofs.PatternClosure
import ImportGroups.Proofs.Walk

/-!
Leaving out ignored directories early.

A walk does not enter a directory whose path is matched. If the patterns are plain, what is below
such a directory is matched as well, so a walk that enters it and asks for the files one by one
yields the same files in the same order.
-/

namespace ImportGroups

namespace WalkRules

/-- The same rules for files, while no directory is ignored; its path is the one with a slash at the
end. -/
def unpruned (rules : WalkRules) : WalkRules :=
  { rules with ignored := fun path => path.toList.getLast? != some '/' && rules.ignored path }

def Closed (rules : WalkRules) : Prop :=
  ∀ dir more, rules.ignored (dir ++ "/") = true → rules.ignored (dir ++ "/" ++ more) = true

end WalkRules

namespace FileTree

variable {t : FileTree} {rules : WalkRules} {start : Path} {here dirs : List String} {f : String}

theorem slashed_append_slashed (ds es : List String) : slashed (ds ++ es) = slashed ds ++ slashed es := by
  induction ds with
  | nil => simp [slashed]
  | cons d ds ih => simp [slashed, ih, String.append_assoc]

theorem inWalk_iff_of_closed (h : rules.Closed) : t.InWalk start here rules dirs f ↔
    t.GoFileBelow start here rules.vendor dirs f ∧
      rules.ignored ("/".intercalate (dirs ++ [f])) = false := by
  refine ⟨fun hin => ⟨hin.toGoFileBelow, hin.kept⟩, fun ⟨hbelow, hkept⟩ => ⟨hbelow, ?_, hkept⟩⟩
  rintro ds ⟨es, rfl⟩ hne
  by_contra hignored
  have hdir := h _ (slashed es ++ f) (Bool.not_eq_false _ ▸ hignored)
  rw [← slashed_of_ne_nil hne, ← String.append_assoc, ← slashed_append_slashed, slashed_append,
    hkept] at hdir
  exact Bool.false_ne_true hdir

theorem inWalk_unpruned_iff : t.InWalk start here rules.unpruned dirs f ↔
    t.GoFileBelow start here rules.vendor dirs f ∧
      rules.ignored ("/".intercalate (dirs ++ [f])) = false := by
  have hfile : t.GoFileBelow start here rules.vendor dirs f →
      ("/".intercalate (dirs ++ [f])).toList.getLast? = some 'o' := by
    intro hbelow
    obtain ⟨stem, hstem⟩ := hbelow.ending
    rw [← slashed_append, String.toList_append, ← hstem]
    simp
  constructor
  · rintro ⟨hbelow, -, hkept⟩
    simp only [WalkRules.unpruned, hfile hbelow, Bool.and_eq_false_imp] at hkept
    exact ⟨hbelow, hkept rfl⟩
  · rintro ⟨hbelow, hkept⟩
    exact ⟨hbelow, by simp [WalkRules.unpruned], by simp [WalkRules.unpruned, hkept]⟩

def patternLines (t : FileTree) (cwd : List String) (config : Config) (start : Path) : List String :=
  (match config.gitignore, t.find? cwd (start.child ".gitignore") with
    | true, .ok (some (.file content)) => ignoreLines content
    | _, _ => []) ++ config.exclude

theorem walkRules_ok {cwd : List String} {config : Config} {start : Path}
    (h : t.walkRules cwd config start = .ok rules) :
    ∃ ignore exclude, rules = ⟨config.vendor, ignoredBy ignore exclude⟩ ∧
      (ignore = none ∨ config.gitignore = true ∧ t.ignoreSpec? cwd start = .ok ignore) ∧
      excludeSpec? config.exclude = .ok exclude := by
  have hrest : ∀ {ignore : Option PatternSpec},
      ((excludeSpec? config.exclude).mapError Fault.badPattern >>= fun exclude =>
        .ok (WalkRules.mk config.vendor (ignoredBy ignore exclude))) = .ok rules →
      ∃ exclude, rules = ⟨config.vendor, ignoredBy ignore exclude⟩ ∧
        excludeSpec? config.exclude = .ok exclude := by
    intro ignore h
    obtain ⟨exclude, hexclude, h⟩ := bind_eq_ok_iff.mp h
    cases h
    exact ⟨exclude, rfl, mapError_eq_ok_iff.mp hexclude⟩
  unfold walkRules at h
  dsimp only at h
  split_ifs at h with hgit
  · obtain ⟨hasIgnore, -, h⟩ := bind_eq_ok_iff.mp h
    split_ifs at h
    · obtain ⟨ignore, hignore, h⟩ := bind_eq_ok_iff.mp h
      obtain ⟨exclude, hrules, hexclude⟩ := hrest h
      exact ⟨ignore, exclude, hrules, .inr ⟨hgit, hignore⟩, hexclude⟩
    · obtain ⟨exclude, hrules, hexclude⟩ := hrest h
      exact ⟨none, exclude, hrules, .inl rfl, hexclude⟩
  · obtain ⟨exclude, hrules, hexclude⟩ := hrest h
    exact ⟨none, exclude, hrules, .inl rfl, hexclude⟩

theorem ignoreSpec?_of_file {cwd : List String} {dir : Path} {content : Text.Bytes}
    (h : t.find? cwd (dir.child ".gitignore") = .ok (some (.file content))) :
    t.ignoreSpec? cwd dir =
      ((PatternSpec.ofLines (ignoreLines content)).map some).mapError .badPattern := by
  simp only [ignoreSpec?, h, bind, Except.bind]

theorem ignoreSpec?_ok {cwd : List String} {dir : Path} {spec : PatternSpec}
    (h : t.ignoreSpec? cwd dir = .ok (some spec)) :
    ∃ content, t.find? cwd (dir.child ".gitignore") = .ok (some (.file content)) ∧
      PatternSpec.ofLines (ignoreLines content) = .ok spec := by
  unfold ignoreSpec? at h
  obtain ⟨n, hn, h⟩ := bind_eq_ok_iff.mp h
  split at h
  · rename_i content
    obtain ⟨spec', hspec, heq⟩ := map_eq_ok_iff.mp (mapError_eq_ok_iff.mp h)
    cases heq
    exact ⟨content, hn, hspec⟩
  · cases h

theorem excludeSpec?_ok {patterns : List String} {spec : PatternSpec}
    (h : excludeSpec? patterns = .ok (some spec)) : PatternSpec.ofLines patterns = .ok spec := by
  unfold excludeSpec? at h
  split at h
  · cases h
  · obtain ⟨spec', hspec, heq⟩ := map_eq_ok_iff.mp h
    cases heq
    exact hspec

theorem closed_walkRules {cwd : List String} {config : Config} {start : Path}
    (hplain : ∀ l ∈ t.patternLines cwd config start, Pattern.IsPlain l)
    (h : t.walkRules cwd config start = .ok rules) :
    rules.vendor = config.vendor ∧ rules.Closed := by
  obtain ⟨ignore, exclude, rfl, hignore, hexclude⟩ := walkRules_ok h
  refine ⟨rfl, fun dir more hdir => ?_⟩
  simp only [ignoredBy, Bool.or_eq_true] at hdir ⊢
  refine hdir.imp (fun hdir => ?_) (fun hdir => ?_)
  · cases ignore with
    | none => simp at hdir
    | some spec =>
      obtain ⟨hgit, hspec⟩ := hignore.resolve_left (by simp)
      obtain ⟨content, hfind, hof⟩ := ignoreSpec?_ok hspec
      refine PatternSpec.ignores_below (fun l hl => hplain l ?_) hof dir more hdir
      simp [patternLines, hgit, hfind, hl]
  · cases exclude with
    | none => simp at hdir
    | some spec =>
      refine PatternSpec.ignores_below (fun l hl => hplain l ?_) (excludeSpec?_ok hexclude) dir more
        hdir
      simp [patternLines, hl]

/-- With plain patterns, leaving out ignored directories early changes neither the files of a walk
nor their order. -/
theorem pruning_changes_nothing {cwd : List String} {config : Config} {start : Path}
    {entries : List (String × Node)} (hwf : t.WellFormed)
    (hstart : t.locate cwd start = .ok (here, .dir entries))
    (hplain : ∀ l ∈ t.patternLines cwd config start, Pattern.IsPlain l)
    (hrules : t.walkRules cwd config start = .ok rules) :
    (∀ dir more, rules.ignored (dir ++ "/") = true → rules.ignored (dir ++ "/" ++ more) = true) ∧
    ∃ files, t.collect cwd config start = .ok files ∧
      (t.visits cwd start rules.unpruned).map (·.filterMap Visit.file?) = .ok files ∧
      ListsFiles files start fun dirs f => t.GoFileBelow start here config.vendor dirs f ∧
        rules.ignored ("/".intercalate (dirs ++ [f])) = false := by
  obtain ⟨hvendor, hclosed⟩ := closed_walkRules hplain hrules
  obtain ⟨visits, hvisits, hlists⟩ := listsFiles_visits hwf hstart rules
  obtain ⟨visits', hvisits', hlists'⟩ := listsFiles_visits hwf hstart rules.unpruned
  have hlists := hlists.congr fun dirs f => inWalk_iff_of_closed hclosed
  have hlists' := hlists'.congr fun dirs f => inWalk_unpruned_iff
  rw [hvendor] at hlists hlists'
  refine ⟨hclosed, visits.filterMap Visit.file?, ?_, ?_, hlists⟩
  · rw [collect, visitsUnder, hrules]
    change (t.visits cwd start rules).map _ = _
    rw [hvisits]
    rfl
  · rw [hvisits', hlists.unique hlists']
    rfl

/-- A tree whose ignore file names a directory. -/
def ignoringTree : FileTree where
  entries := [(".gitignore", .file (Text.encodeUtf8 "out/\n")), ("a.go", .file []),
    ("out", .dir [("b.go", .file [])])]

theorem ignoringTree_wellFormed : ignoringTree.WellFormed := by
  refine .dir (by decide) (by decide) fun e he => ?_
  simp only [ignoringTree, List.mem_cons, List.not_mem_nil, or_false] at he
  rcases he with rfl | rfl | rfl
  · exact .file _
  · exact .file _
  · refine .dir (by decide) (by decide) fun e he => ?_
    rw [List.mem_singleton.mp he]
    exact .file _

theorem ignoringTree_locate : ignoringTree.locate [] {} = .ok ([], .dir ignoringTree.entries) := by
  rw [locate, if_neg (by decide), if_neg (by decide), locateFrom.eq_def]
  rfl

theorem ignoringTree_ignoreFile : ignoringTree.find? [] (({} : Path).child ".gitignore") =
    .ok (some (.file (Text.encodeUtf8 "out/\n"))) := by
  have hlocate : ignoringTree.locate [] ⟨.relative, [".gitignore"]⟩ =
      .ok ([".gitignore"], .file (Text.encodeUtf8 "out/\n")) := by
    rw [locate, if_neg (by decide), if_neg (by decide), locateFrom, if_neg (by decide),
      if_neg (by decide), if_neg (by decide)]
    rfl
  have hchild : ({} : Path).child ".gitignore" = ⟨.relative, [".gitignore"]⟩ := by decide
  rw [find?, hchild, hlocate]

theorem ignoringTree_lines : ignoreLines (Text.encodeUtf8 "out/\n") = ["out/"] := by decide +kernel

theorem ignoringTree_ignoreSpec : ignoringTree.ignoreSpec? [] {} = .ok (some
    ⟨[⟨false, .atoms [.leadingDirs, .char 'o', .char 'u', .char 't', .char '/']⟩]⟩) := by
  have hspec : PatternSpec.ofLines ["out/"] =
      .ok ⟨[⟨false, .atoms [.leadingDirs, .char 'o', .char 'u', .char 't', .char '/']⟩]⟩ := by cbv
  rw [ignoreSpec?_of_file ignoringTree_ignoreFile, ignoringTree_lines, hspec]
  rfl

/-- The directory that the ignore file names is left out, and whatever begins with a `z`. -/
def ignoringRules : WalkRules where
  vendor := "vendor"
  ignored := ignoredBy
    (some ⟨[⟨false, .atoms [.leadingDirs, .char 'o', .char 'u', .char 't', .char '/']⟩]⟩)
    (some ⟨[⟨false, .atoms [.leadingDirs, .char 'z', .run, .boundary]⟩]⟩)

theorem ignoringTree_walkRules :
    ignoringTree.walkRules [] { exclude := ["z*"] } {} = .ok ignoringRules := by
  have hdir : ignoringTree.isDir [] {} = .ok true := by
    rw [isDir, find?, ignoringTree_locate]
    rfl
  have hexclude : excludeSpec? ["z*"] =
      .ok (some ⟨[⟨false, .atoms [.leadingDirs, .char 'z', .run, .boundary]⟩]⟩) := by cbv
  simp only [walkRules, if_true, hdir, ignoringTree_ignoreSpec, hexclude, bind, Except.bind,
    Except.mapError]
  rfl

theorem pruning_changes_nothing_ignoringTree :
    (∀ dir more, ignoringRules.ignored (dir ++ "/") = true →
      ignoringRules.ignored (dir ++ "/" ++ more) = true) ∧
    ∃ files, ignoringTree.collect [] { exclude := ["z*"] } {} = .ok files ∧
      (ignoringTree.visits [] {} ignoringRules.unpruned).map (·.filterMap Visit.file?) = .ok files ∧
      ListsFiles files {} fun dirs f => ignoringTree.GoFileBelow {} [] "vendor" dirs f ∧
        ignoringRules.ignored ("/".intercalate (dirs ++ [f])) = false := by
  have hplain : ∀ l ∈ ignoringTree.patternLines [] { exclude := ["z*"] } {}, Pattern.IsPlain l := by
    simp only [patternLines, ignoringTree_ignoreFile, ignoringTree_lines]
    decide
  exact pruning_changes_nothing ignoringTree_wellFormed ignoringTree_locate hplain
    ignoringTree_walkRules

end FileTree

end ImportGroups
