import ImportGroups.Proofs.Exclusion
import ImportGroups.Proofs.Lines

/-!
The vendor directory of a configuration.

Its name has no slash at either end, whatever mapping the configuration is read from and whatever
options are put on top. A walk compares the name with those of the entries at the top. So a name
without a slash is always left out, and one with a slash inside, which no entry has, never is.
-/

namespace ImportGroups

structure IsVendorName (v : String) : Prop where
  ne_empty : v ≠ ""
  head : v.toList.head? ≠ some '/'
  last : v.toList.getLast? ≠ some '/'

theorem head?_trimSlashes (s : String) : (Text.trimChar '/' s).toList.head? ≠ some '/' := by
  intro hhead
  rw [Text.trimChar, String.toList_ofList] at hhead
  simpa using Text.head?_trimWhile hhead

theorem getLast?_trimSlashes (s : String) : (Text.trimChar '/' s).toList.getLast? ≠ some '/' := by
  intro hlast
  rw [Text.trimChar, String.toList_ofList] at hlast
  simpa using Text.getLast?_dropEndWhile hlast

theorem isVendorName_of_vendorName? {s v : String} (h : vendorName? s = some v) :
    IsVendorName v := by
  simp only [vendorName?, Option.ite_none_left_eq_some, Option.some.injEq] at h
  obtain ⟨hne, rfl⟩ := h
  constructor
  · simpa using hne
  · exact head?_trimSlashes s
  · exact getLast?_trimSlashes s

namespace Config

open Yaml (Value)

theorem isVendorName_of_vendorOf {value? : Option Value} {v : String}
    (h : vendorOf value? = .ok v) : IsVendorName v := by
  unfold vendorOf at h
  split at h
  · cases h
    constructor <;> decide
  · split at h
    · rename_i name hname
      cases h
      exact isVendorName_of_vendorName? hname
    · cases h
  · cases h

theorem isVendorName_of_ofMapping {pairs : List (Value × Value)} {c : Config}
    (h : ofMapping pairs = .ok c) : IsVendorName c.vendor := by
  obtain ⟨-, -, h⟩ := bind_eq_ok_iff.mp h
  obtain ⟨root, -, h⟩ := bind_eq_ok_iff.mp h
  obtain ⟨vendor, hvendor, h⟩ := bind_eq_ok_iff.mp h
  obtain ⟨exclude, -, h⟩ := bind_eq_ok_iff.mp h
  obtain ⟨gitignore, -, h⟩ := bind_eq_ok_iff.mp h
  cases h
  exact isVendorName_of_vendorOf hvendor

/-- One set of options leaves the name or puts a proper one in its place. -/
theorem isVendorName_of_override {c c' : Config} {o : Override} (hc : IsVendorName c.vendor)
    (h : c.override o = .ok c') : IsVendorName c'.vendor := by
  unfold override at h
  split at h
  · cases h
    exact hc
  · split at h
    · rename_i name hname
      cases h
      exact isVendorName_of_vendorName? hname
    · cases h

theorem isVendorName_of_overrides {overrides : List Override} {c c' : Config}
    (hc : IsVendorName c.vendor) (h : overrides.foldlM override c = .ok c') :
    IsVendorName c'.vendor := by
  induction overrides generalizing c with
  | nil =>
    cases h
    exact hc
  | cons o rest ih =>
    rw [List.foldlM_cons] at h
    obtain ⟨next, hnext, h⟩ := bind_eq_ok_iff.mp h
    exact ih (isVendorName_of_override hc hnext) h

end Config

theorem ListsFiles.exists_fileBelow {paths : List Path} {shown p : Path}
    {files : List String → String → Prop} (h : ListsFiles paths shown files) (hp : p ∈ paths) :
    ∃ dirs f, p = shown.fileBelow (dirs, f) := by
  obtain ⟨found, rfl, -, -⟩ := h
  obtain ⟨⟨dirs, f⟩, -, rfl⟩ := List.mem_map.mp hp
  exact ⟨dirs, f, rfl⟩

theorem Node.WellFormed.isName_of_nodeAt {n m : Node} {names : List String} (hwf : n.WellFormed)
    (h : n.nodeAt names = some m) : ∀ name ∈ names, IsName name := by
  induction names generalizing n with
  | nil => simp
  | cons name names ih =>
    cases hwf with
    | file content => simp [Node.nodeAt] at h
    | link target => simp [Node.nodeAt] at h
    | dir hnodup hnames hnodes =>
      rename_i entries
      rw [Node.nodeAt] at h
      split at h
      · rename_i next hlookup
        have hmem := (Node.lookup_eq_some_iff hnodup).mp hlookup
        exact List.forall_mem_cons.mpr ⟨hnames _ hmem, ih (hnodes _ hmem) h⟩
      · cases h

namespace FileTree

variable {t : FileTree} {cwd here : List String} {start : Path} {entries : List (String × Node)}
  {vendor : String} {dirs : List String} {f : String}

/-- The names on the way to a file below a directory are proper, and the first of them is that of an
entry. -/
theorem GoFileBelow.isName (hwf : t.WellFormed) (h : t.GoFileBelow start here vendor dirs f) :
    ∀ name ∈ dirs ++ [f], IsName name := by
  obtain ⟨n, hn⟩ := h.stands
  intro name hname
  apply Node.WellFormed.isName_of_nodeAt hwf hn
  rw [List.append_assoc]
  exact List.mem_append_right here hname

theorem GoFileBelow.head_mem (hwf : t.WellFormed) (hnode : t.nodeAt here = some (.dir entries))
    (h : t.GoFileBelow start here vendor dirs f) {d : String} (hd : dirs.head? = some d) :
    d ∈ entries.map (·.1) := by
  obtain ⟨ds, rfl⟩ := List.head?_eq_some_iff.mp hd
  obtain ⟨n, hn⟩ := h.stands
  rw [List.append_assoc, nodeAt_append, hnode] at hn
  simp only [List.cons_append, Option.bind_some, Node.nodeAt] at hn
  split at hn
  · rename_i m hlookup
    cases Node.WellFormed.nodeAt hwf hnode with | dir hnodup _ _ =>
    exact List.mem_map_of_mem ((Node.lookup_eq_some_iff hnodup).mp hlookup)
  · cases hn

theorem goFileBelow_of_absent (hwf : t.WellFormed) (hnode : t.nodeAt here = some (.dir entries))
    {other : String} (habsent : other ∉ entries.map (·.1)) (h : t.GoFileBelow start here vendor dirs f) :
    t.GoFileBelow start here other dirs f := by
  refine { h with noVendor := ?_ }
  intro hhead
  exact habsent (h.head_mem hwf hnode hhead)

theorem inWalk_iff_of_absent (hwf : t.WellFormed) (hnode : t.nodeAt here = some (.dir entries))
    {other : String} {ignored : String → Bool} (hvendor : vendor ∉ entries.map (·.1))
    (hother : other ∉ entries.map (·.1)) :
    t.InWalk start here ⟨vendor, ignored⟩ dirs f ↔
      t.InWalk start here ⟨other, ignored⟩ dirs f := by
  constructor
  · intro h
    exact ⟨goFileBelow_of_absent hwf hnode hother h.toGoFileBelow, h.dirsKept, h.kept⟩
  · intro h
    exact ⟨goFileBelow_of_absent hwf hnode hvendor h.toGoFileBelow, h.dirsKept, h.kept⟩

theorem collect_listsFiles {config : Config} {files : List Path} (hwf : t.WellFormed)
    (hstart : t.locate cwd start = .ok (here, .dir entries))
    (h : t.collect cwd config start = .ok files) :
    ∃ ignored, t.walkRules cwd config start = .ok ⟨config.vendor, ignored⟩ ∧
      ListsFiles files start (t.InWalk start here ⟨config.vendor, ignored⟩) := by
  obtain ⟨rules, vs, hwalk, hvisits, rfl⟩ := collect_ok_iff.mp h
  obtain ⟨ignore, exclude, -, -, rfl⟩ := walkRules_ok_iff.mp hwalk
  obtain ⟨vs', hvisits', hlists⟩ :=
    listsFiles_visits hwf hstart ⟨config.vendor, ignoredBy ignore exclude⟩
  rw [hvisits] at hvisits'
  cases hvisits'
  exact ⟨_, hwalk, hlists⟩

theorem collect_of_absent {config : Config} {files : List Path} {other : String} (hwf : t.WellFormed)
    (hstart : t.locate cwd start = .ok (here, .dir entries))
    (hvendor : config.vendor ∉ entries.map (·.1)) (hother : other ∉ entries.map (·.1))
    (h : t.collect cwd config start = .ok files) :
    t.collect cwd { config with vendor := other } start = .ok files := by
  obtain ⟨ignored, hrules, hlists⟩ := collect_listsFiles hwf hstart h
  obtain ⟨ignore, exclude, hignore, hexclude, heq⟩ := walkRules_ok_iff.mp hrules
  have hrules' : t.walkRules cwd { config with vendor := other } start =
      .ok ⟨other, ignoredBy ignore exclude⟩ :=
    walkRules_ok_iff.mpr ⟨ignore, exclude, hignore, hexclude, rfl⟩
  obtain ⟨vs, hvisits, hlists'⟩ := listsFiles_visits hwf hstart ⟨other, ignoredBy ignore exclude⟩
  refine collect_ok_iff.mpr ⟨_, vs, hrules', hvisits, ?_⟩
  have hignored : ignored = ignoredBy ignore exclude := congrArg WalkRules.ignored heq
  subst hignored
  -- a list of files is determined by what it lists
  apply hlists.unique
  apply hlists'.congr
  intro dirs f
  exact inWalk_iff_of_absent hwf (nodeAt_of_locate hstart) hother hvendor

/-- Below a directory whose name has no slash, and only there, paths begin with this name and a
slash. -/
theorem not_isPrefix_of_noVendor (hslash : '/' ∉ vendor.toList) (hnames : ∀ name ∈ dirs ++ [f], IsName name)
    (hvendor : dirs.head? ≠ some vendor) :
    ¬ (vendor ++ "/").toList <+: ("/".intercalate (dirs ++ [f])).toList := by
  rintro ⟨rest, hrest⟩
  have hvendorSlash : (vendor ++ "/").toList ++ rest = vendor.toList ++ '/' :: rest := by simp
  rw [hvendorSlash] at hrest
  cases dirs with
  | nil =>
    have hf := (hnames f (by simp)).2.2
    apply hf
    have hmem : '/' ∈ vendor.toList ++ '/' :: rest := by simp
    rw [hrest] at hmem
    simpa using hmem
  | cons d ds =>
    have hd := (hnames d (by simp)).2.2
    have hpath : ("/".intercalate (d :: ds ++ [f])).toList =
        d.toList ++ '/' :: ("/".intercalate (ds ++ [f])).toList := by
      rw [List.cons_append, String.intercalate_cons_of_ne_nil (by simp)]
      simp
    rw [hpath] at hrest
    -- neither name has a slash, so both end at the first one
    have heq : vendor.toList = d.toList := by
      have htake : ∀ {cs : List Char}, '/' ∉ cs → ∀ more,
          (cs ++ '/' :: more).takeWhile (· != '/') = cs := by
        intro cs hcs more
        rw [List.takeWhile_append_of_pos]
        · simp
        · intro c hc
          simpa using fun h : c = '/' => hcs (h ▸ hc)
      rw [← htake hslash rest, hrest, htake hd]
    exact hvendor (by rw [List.head?_cons, String.toList_inj.mp heq])

/-- Of a configuration that is read and overridden, the vendor directory's name has no slash at
either end. Without a slash inside it the directory is left out, with one nothing is. -/
theorem vendor_directory_left_out {pairs : List (Yaml.Value × Yaml.Value)}
    {overrides : List Config.Override} {given config : Config}
    (hgiven : Config.ofMapping pairs = .ok given)
    (hconfig : overrides.foldlM Config.override given = .ok config) :
    (config.vendor ≠ "" ∧ config.vendor.toList.head? ≠ some '/' ∧
      config.vendor.toList.getLast? ≠ some '/') ∧
    ∀ (t : FileTree) (cwd here : List String) (start : Path) (entries : List (String × Node))
      (files : List Path), t.WellFormed → t.locate cwd start = .ok (here, .dir entries) →
      t.collect cwd config start = .ok files →
      (∀ p ∈ files, ∃ dirs f, p = start.fileBelow (dirs, f) ∧ ('/' ∉ config.vendor.toList →
        ¬ (config.vendor ++ "/").toList <+: ("/".intercalate (dirs ++ [f])).toList)) ∧
      ('/' ∈ config.vendor.toList → ∀ other, other ∉ entries.map (·.1) →
        t.collect cwd { config with vendor := other } start = .ok files) := by
  have hname := Config.isVendorName_of_overrides (Config.isVendorName_of_ofMapping hgiven) hconfig
  refine ⟨⟨hname.ne_empty, hname.head, hname.last⟩, ?_⟩
  intro t cwd here start entries files hwf hstart hfiles
  constructor
  · intro p hp
    obtain ⟨ignored, -, hlists⟩ := collect_listsFiles hwf hstart hfiles
    obtain ⟨dirs, f, rfl⟩ := hlists.exists_fileBelow hp
    have hin := hlists.mem_fileBelow_iff.mp hp
    refine ⟨dirs, f, rfl, ?_⟩
    intro hslash
    exact not_isPrefix_of_noVendor hslash (hin.toGoFileBelow.isName hwf) hin.noVendor
  · intro hslash other hother
    apply collect_of_absent hwf hstart _ hother hfiles
    intro hmem
    obtain ⟨e, he, hvendor⟩ := List.mem_map.mp hmem
    cases Node.WellFormed.nodeAt hwf (nodeAt_of_locate hstart) with | dir _ hnames _ =>
    exact (hnames e he).2.2 (hvendor ▸ hslash)

/-- A tree with vendored files two levels down. -/
def vendoredTree : FileTree where
  entries := [("a.go", .file []),
    ("third_party", .dir [("vendor", .dir [("x.go", .file [])])])]

theorem vendoredTree_wellFormed : vendoredTree.WellFormed := by
  have hinner : (Node.dir [("x.go", .file [])]).WellFormed := by
    refine .dir (by decide) (by decide) ?_
    intro e he
    rw [List.mem_singleton.mp he]
    exact .file _
  have hmiddle : (Node.dir [("vendor", .dir [("x.go", .file [])])]).WellFormed := by
    refine .dir (by decide) (by decide) ?_
    intro e he
    rw [List.mem_singleton.mp he]
    exact hinner
  refine .dir (by decide) (by decide) ?_
  intro e he
  simp only [vendoredTree, List.mem_cons, List.not_mem_nil, or_false] at he
  rcases he with rfl | rfl
  · exact .file _
  · exact hmiddle

theorem vendoredTree_locate : vendoredTree.locate [] {} = .ok ([], .dir vendoredTree.entries) := by
  rw [locate, if_neg (by decide), if_neg (by decide), locateFrom.eq_def]
  rfl

theorem vendoredTree_collect (vendor : String) :
    ∃ files, vendoredTree.collect [] { vendor, gitignore := false } {} = .ok files ∧
      ListsFiles files {} (vendoredTree.InWalk {} [] ⟨vendor, ignoredBy none none⟩) := by
  obtain ⟨vs, hvs, hlists⟩ := listsFiles_visits vendoredTree_wellFormed vendoredTree_locate
    ⟨vendor, ignoredBy none none⟩
  exact ⟨_, collect_ok_iff.mpr
    ⟨_, vs, walkRules_ok_iff.mpr ⟨none, none, rfl, rfl, rfl⟩, hvs, rfl⟩, hlists⟩

theorem vendor_directory_left_out_vendoredTree :
    ∃ files, vendoredTree.collect [] { vendor := "third_party", gitignore := false } {} =
      .ok files ∧ ∀ p ∈ files, ∃ dirs f, p = ({} : Path).fileBelow (dirs, f) ∧
        ¬ "third_party/".toList <+: ("/".intercalate (dirs ++ [f])).toList := by
  have hgiven : Config.ofMapping [(.str "vendor", .str "third_party/")] =
      .ok { vendor := "third_party" } := rfl
  have hconfig : [({ noGitignore := true } : Config.Override)].foldlM Config.override
      { vendor := "third_party" } = .ok { vendor := "third_party", gitignore := false } := rfl
  obtain ⟨files, hfiles, -⟩ := vendoredTree_collect "third_party"
  obtain ⟨-, hwalk⟩ := vendor_directory_left_out hgiven hconfig
  obtain ⟨hbelow, -⟩ := hwalk _ _ _ _ _ _ vendoredTree_wellFormed vendoredTree_locate hfiles
  refine ⟨files, hfiles, ?_⟩
  intro p hp
  obtain ⟨dirs, f, hpath, hnot⟩ := hbelow p hp
  exact ⟨dirs, f, hpath, hnot (by decide)⟩

/-- A vendor directory below the top is accepted and entered all the same. -/
theorem nested_vendor_directory_entered :
    Config.ofMapping [(.str "vendor", .str "third_party/vendor"), (.str "gitignore", .bool false)] =
      .ok { vendor := "third_party/vendor", gitignore := false } ∧
    ∃ files, vendoredTree.collect [] { vendor := "third_party/vendor", gitignore := false } {} =
      .ok files ∧ ⟨.relative, ["third_party", "vendor", "x.go"]⟩ ∈ files := by
  refine ⟨rfl, ?_⟩
  obtain ⟨files, hfiles, hlists⟩ := vendoredTree_collect "third_party/vendor"
  refine ⟨files, hfiles, ?_⟩
  have hin : vendoredTree.InWalk {} [] ⟨"third_party/vendor", ignoredBy none none⟩
      ["third_party", "vendor"] "x.go" := by
    refine ⟨⟨⟨.file [], rfl⟩, ?_, by decide, by decide, by decide, by decide,
      by decide⟩, ?_, rfl⟩
    · rintro (⟨entries, h⟩ | ⟨target, -, -, h, -⟩)
      · cases h
      · cases h
    · intro ds hds hne
      rfl
  exact hlists.mem_fileBelow_iff.mpr hin

end FileTree

end ImportGroups
