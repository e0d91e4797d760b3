import ImportGroups.Proofs.Rewriting
import ImportGroups.Proofs.SortedTree
import Mathlib.Data.List.Sort

/-!
Which files a walk yields, and in which order.

A file below the start is known by the directories on the way to it and by its name. The walk yields
it exactly if nothing on the way and not the file itself is left out. Of two files the one comes
first that stands in the directory in which their ways part; if both go on into subdirectories, or
both stand there, the names decide.
-/

namespace ImportGroups

/-- The one file comes before the other on a walk. A file is given by the directories on the way to
it and by its name. -/
inductive Precedes : List String × String → List String × String → Prop where
  | files {a b : String} : a < b → Precedes ([], a) ([], b)
  | fileFirst {a b d : String} {ds : List String} : Precedes ([], a) (d :: ds, b)
  | dirs {a b d e : String} {ds es : List String} : d < e → Precedes (d :: ds, a) (e :: es, b)
  | inside {a b d : String} {ds es : List String} :
      Precedes (ds, a) (es, b) → Precedes (d :: ds, a) (d :: es, b)

theorem Precedes.asymm {x y : List String × String} (h : Precedes x y) : ¬ Precedes y x := by
  induction h with
  | files hlt =>
    rintro ⟨hgt⟩
    exact lt_asymm hlt hgt
  | fileFirst => rintro ⟨⟩
  | dirs hlt =>
    rintro (_ | _ | hgt | _)
    · exact lt_asymm hlt hgt
    · exact lt_irrefl _ hlt
  | inside _ ih =>
    rintro (_ | _ | hgt | hinside)
    · exact lt_irrefl _ hgt
    · exact ih hinside

instance : Std.Irrefl Precedes := ⟨fun _ h => h.asymm h⟩

instance : Std.Antisymm Precedes := ⟨fun _ _ h h' => absurd h' h.asymm⟩

def Path.fileBelow (p : Path) (x : List String × String) : Path :=
  p.join ⟨.relative, x.1 ++ [x.2]⟩

/-- How many bytes the path of a directory below `p` has. -/
def Path.sizeBelow (p : Path) (dirs : List String) : Nat :=
  dirs.foldl (fun size d => size + (d.utf8ByteSize + 1)) p.baseSize

theorem Path.fileBelow_injective (p : Path) : Function.Injective p.fileBelow := by
  rintro ⟨ds, a⟩ ⟨es, b⟩ h
  simpa [fileBelow, join, isAbsolute] using h

theorem IsName.fileBelow_child {d : String} (h : IsName d) (p : Path) (ds : List String)
    (f : String) : (p.child d).fileBelow (ds, f) = p.fileBelow (d :: ds, f) := by
  simp [h.child, Path.fileBelow, Path.join, Path.isAbsolute]

/-- The paths are those of the files in question below `shown`, in the order of a walk. -/
def ListsFiles (paths : List Path) (shown : Path) (files : List String → String → Prop) : Prop :=
  ∃ found : List (List String × String), paths = found.map shown.fileBelow ∧
    (∀ dirs f, (dirs, f) ∈ found ↔ files dirs f) ∧ found.Pairwise Precedes

namespace ListsFiles

variable {paths more : List Path} {shown : Path} {files others : List String → String → Prop}

theorem nil (shown : Path) : ListsFiles [] shown fun _ _ => False :=
  ⟨[], rfl, by simp, .nil⟩

theorem congr (h : ListsFiles paths shown files) (hf : ∀ dirs f, files dirs f ↔ others dirs f) :
    ListsFiles paths shown others := by
  obtain ⟨found, hpaths, hmem, horder⟩ := h
  exact ⟨found, hpaths, fun dirs f => (hmem dirs f).trans (hf dirs f), horder⟩

theorem append (h : ListsFiles paths shown files) (h' : ListsFiles more shown others)
    (hbefore : ∀ dirs f dirs' f', files dirs f → others dirs' f' →
      Precedes (dirs, f) (dirs', f')) :
    ListsFiles (paths ++ more) shown fun dirs f => files dirs f ∨ others dirs f := by
  obtain ⟨found, rfl, hmem, horder⟩ := h
  obtain ⟨found', rfl, hmem', horder'⟩ := h'
  refine ⟨found ++ found', by simp, fun dirs f => by simp [hmem, hmem'], ?_⟩
  refine List.pairwise_append.mpr ⟨horder, horder', fun x hx y hy => ?_⟩
  exact hbefore _ _ _ _ ((hmem x.1 x.2).mp hx) ((hmem' y.1 y.2).mp hy)

theorem inside {d : String} (hd : IsName d) (h : ListsFiles paths (shown.child d) files) :
    ListsFiles paths shown fun dirs f => ∃ ds, dirs = d :: ds ∧ files ds f := by
  obtain ⟨found, rfl, hmem, horder⟩ := h
  refine ⟨found.map fun x => (d :: x.1, x.2), ?_, ?_, ?_⟩
  · rw [List.map_map]
    exact List.map_congr_left fun x _ => hd.fileBelow_child shown x.1 x.2
  · intro dirs f
    rw [List.mem_map]
    constructor
    · rintro ⟨⟨ds, f⟩, hx, h⟩
      cases h
      exact ⟨ds, rfl, (hmem ds f).mp hx⟩
    · rintro ⟨ds, rfl, hfile⟩
      exact ⟨(ds, f), (hmem ds f).mpr hfile, rfl⟩
  · exact List.pairwise_map.mpr (horder.imp .inside)

theorem nodup (h : ListsFiles paths shown files) : paths.Nodup := by
  obtain ⟨found, rfl, -, horder⟩ := h
  refine List.pairwise_map.mpr (horder.imp ?_)
  intro x y hxy heq
  obtain rfl := shown.fileBelow_injective heq
  exact hxy.asymm hxy

theorem unique (h : ListsFiles paths shown files) (h' : ListsFiles more shown files) :
    paths = more := by
  obtain ⟨found, rfl, hmem, horder⟩ := h
  obtain ⟨found', rfl, hmem', horder'⟩ := h'
  have heq : found = found' :=
    horder.eq_of_mem_iff horder' fun x => (hmem x.1 x.2).trans (hmem' x.1 x.2).symm
  rw [heq]

end ListsFiles

namespace FileTree

variable {t : FileTree} {rules : WalkRules} {w : WalkPlace}

def Finds (t : FileTree) (rules : WalkRules) (w : WalkPlace) : List String → String → Prop
  | [], f => w.opens = true ∧ ∃ n, t.nodeAt (w.here ++ [f]) = some n ∧
      t.leadsToDir w.here (f, n) = false ∧ isGoFile f = true ∧ rules.ignored (w.below ++ f) = false
  | d :: ds, f => (∃ entries, t.nodeAt (w.here ++ [d]) = some (.dir entries)) ∧
      w.leavesOut rules d = false ∧ Finds t rules (w.enter d) ds f

theorem not_finds {n : Node} (hn : t.nodeAt w.here = some n) (hdir : n.isDir = false)
    (dirs : List String) (f : String) : ¬ t.Finds rules w dirs f := by
  have hnone : ∀ name, t.nodeAt (w.here ++ [name]) = none := by
    intro name
    rw [nodeAt_append, hn, Option.bind_some]
    cases n <;> simp_all [Node.nodeAt, Node.isDir]
  cases dirs with
  | nil =>
    rintro ⟨-, m, hm, -⟩
    simp [hnone] at hm
  | cons d ds =>
    rintro ⟨⟨entries, hm⟩, -⟩
    simp [hnone] at hm

theorem opens_of_enter {d : String} (h : (w.enter d).opens = true) : w.opens = true := by
  have hsize : w.size + (d.utf8ByteSize + 1) ≤ maxPathSize := of_decide_eq_true h
  exact decide_eq_true (Nat.le_of_add_right_le hsize)

theorem Finds.opens {dirs : List String} {f : String} (h : t.Finds rules w dirs f) :
    w.opens = true := by
  induction dirs generalizing w with
  | nil => exact h.1
  | cons d ds ih => exact opens_of_enter (ih h.2.2)

theorem ownVisits_files (t : FileTree) (rules : WalkRules) (w : WalkPlace)
    (entries : List (String × Node)) :
    (t.ownVisits rules w entries).filterMap Visit.file? =
      (entries.filter fun e => !t.leadsToDir w.here e && (isGoFile e.1 &&
        !rules.ignored (w.below ++ e.1))).map fun e => w.shown.child e.1 := by
  have hdir : ∀ name, (w.dirVisit? rules name).bind Visit.file? = none := by
    intro name
    unfold WalkPlace.dirVisit?
    split_ifs <;> rfl
  have hfile : ∀ name, (w.fileVisit? rules name).bind Visit.file? =
      if isGoFile name && !rules.ignored (w.below ++ name) then some (w.shown.child name)
      else none := by
    intro name
    unfold WalkPlace.fileVisit?
    by_cases hgo : isGoFile name <;> by_cases hig : rules.ignored (w.below ++ name) <;>
      simp [hgo, hig, Visit.file?]
  rw [ownVisits, List.filterMap_append, List.filterMap_filterMap, List.filterMap_filterMap]
  simp only [hdir, hfile, List.filterMap_none, List.nil_append]
  induction entries with
  | nil => rfl
  | cons e rest ih =>
    by_cases hl : t.leadsToDir w.here e <;>
      by_cases hk : (isGoFile e.1 && !rules.ignored (w.below ++ e.1)) <;> simp_all

variable (rules) in
theorem listsFiles_own {entries : List (String × Node)}
    (hn : t.nodeAt w.here = some (.dir entries)) (hwf : (Node.dir entries).WellFormed)
    (hopens : w.opens = true) :
    ListsFiles ((t.ownVisits rules w (Node.ordered entries)).filterMap Visit.file?) w.shown
      fun dirs f => dirs = [] ∧ t.Finds rules w [] f := by
  cases hwf with | dir hnodup hnames _ =>
  refine ⟨((Node.ordered entries).filter fun e => !t.leadsToDir w.here e && (isGoFile e.1 &&
    !rules.ignored (w.below ++ e.1))).map fun e => ([], e.1), ?_, ?_, ?_⟩
  · rw [ownVisits_files, List.map_map]
    refine List.map_congr_left fun e he => ?_
    obtain ⟨n, hmem, -⟩ := Node.mem_ordered.mp (List.mem_filter.mp he).1
    exact (hnames _ hmem).child w.shown
  · intro dirs f
    simp only [List.mem_map, List.mem_filter, Node.mem_ordered, Prod.mk.injEq, Bool.and_eq_true,
      Bool.not_eq_true', Finds, hopens, true_and, nodeAt_entry hn hnodup]
    constructor
    · rintro ⟨⟨name, m⟩, ⟨⟨n, hmem, rfl⟩, hleads, hgo, hkept⟩, rfl, rfl⟩
      exact ⟨rfl, n, hmem, by rwa [leadsToDir_sorted] at hleads, hgo, hkept⟩
    · rintro ⟨rfl, n, hmem, hleads, hgo, hkept⟩
      exact ⟨(f, n.sorted), ⟨⟨n, hmem, rfl⟩, by rwa [leadsToDir_sorted], hgo, hkept⟩, rfl, rfl⟩
  · refine List.pairwise_map.mpr ((Node.ordered_pairwise hnodup).filter _ |>.imp ?_)
    exact fun hlt => .files hlt

variable (rules) in
/-- The files below those of some subdirectories in order that are not left out. -/
theorem listsFiles_sub {entries : List (String × Node)}
    (hnames : ∀ e ∈ entries, IsName e.1) (horder : entries.Pairwise fun a b => a.1 < b.1)
    (hfiles : ∀ e ∈ entries, ListsFiles
      ((t.dirVisits rules (w.enter e.1) e.2).filterMap Visit.file?) (w.shown.child e.1)
        (t.Finds rules (w.enter e.1))) :
    ListsFiles ((t.subVisits rules w entries).filterMap Visit.file?) w.shown
      fun dirs f => ∃ d ds, dirs = d :: ds ∧ (∃ e ∈ entries, e.1 = d) ∧
        w.leavesOut rules d = false ∧ t.Finds rules (w.enter d) ds f := by
  induction entries with
  | nil =>
    simp only [subVisits, List.filterMap_nil]
    exact (ListsFiles.nil _).congr (by simp)
  | cons e rest ih =>
    obtain ⟨name, n⟩ := e
    obtain ⟨hname, hnames⟩ := List.forall_mem_cons.mp hnames
    obtain ⟨hbefore, horder⟩ := List.pairwise_cons.mp horder
    obtain ⟨hfirst, hfiles⟩ := List.forall_mem_cons.mp hfiles
    have hrest := ih hnames horder hfiles
    have hown : ListsFiles ((if w.leavesOut rules name then []
        else t.dirVisits rules (w.enter name) n).filterMap Visit.file?) w.shown
        fun dirs f => ∃ ds, dirs = name :: ds ∧ w.leavesOut rules name = false ∧
          t.Finds rules (w.enter name) ds f := by
      by_cases hout : w.leavesOut rules name = true
      · simp only [hout, if_true, List.filterMap_nil]
        exact (ListsFiles.nil _).congr (by simp)
      · simp only [hout, Bool.false_eq_true, if_false]
        exact (hfirst.inside hname).congr (by simp)
    rw [subVisits, List.filterMap_append]
    refine (hown.append hrest ?_).congr ?_
    · rintro dirs f dirs' f' ⟨ds, rfl, -⟩ ⟨d, ds', rfl, ⟨e, he, rfl⟩, -⟩
      exact .dirs (hbefore e he)
    · intro dirs f
      constructor
      · rintro (⟨ds, rfl, hin⟩ | ⟨d, ds, rfl, ⟨e, he, hd⟩, hin⟩)
        · exact ⟨name, ds, rfl, ⟨(name, n), by simp, rfl⟩, hin⟩
        · exact ⟨d, ds, rfl, ⟨e, List.mem_cons_of_mem _ he, hd⟩, hin⟩
      · rintro ⟨d, ds, rfl, ⟨e, he, rfl⟩, hin⟩
        rcases List.mem_cons.mp he with rfl | he
        · exact .inl ⟨ds, rfl, hin⟩
        · exact .inr ⟨e.1, ds, rfl, ⟨e, he, rfl⟩, hin⟩

variable (rules) in
theorem listsFiles_dirVisits (n : Node) (w : WalkPlace) (hn : t.nodeAt w.here = some n)
    (hwf : n.WellFormed) :
    ListsFiles ((t.dirVisits rules w n.sorted).filterMap Visit.file?) w.shown (t.Finds rules w) := by
  induction n using Node.entriesInduction generalizing w with
  | file content =>
    simp only [Node.sorted, dirVisits, List.filterMap_nil]
    exact (ListsFiles.nil _).congr fun dirs f => by simp [not_finds hn rfl]
  | link target =>
    simp only [Node.sorted, dirVisits, List.filterMap_nil]
    exact (ListsFiles.nil _).congr fun dirs f => by simp [not_finds hn rfl]
  | dir entries ih =>
    by_cases hopens : w.opens = true
    case neg =>
      simp only [Node.sorted_dir, dirVisits, hopens, Bool.false_eq_true, if_false,
        List.filterMap_nil]
      exact (ListsFiles.nil _).congr fun dirs f => iff_of_false id fun h => hopens h.opens
    have hown := listsFiles_own rules hn hwf hopens
    cases hwf with | dir hnodup hnames hnodes =>
    have hentry : ∀ e ∈ Node.ordered entries, ∃ m, (e.1, m) ∈ entries ∧ e.2 = m.sorted :=
      fun e he => Node.mem_ordered.mp he
    have hsub := listsFiles_sub (t := t) (w := w) rules
      (fun e he => (hentry e he).elim fun m hm => hnames (e.1, m) hm.1) (Node.ordered_pairwise hnodup)
      fun e he => by
        obtain ⟨m, hm, hsorted⟩ := hentry e he
        rw [hsorted]
        exact ih _ hm (w.enter e.1) ((nodeAt_entry hn hnodup).mpr hm) (hnodes _ hm)
    rw [Node.sorted_dir, dirVisits, if_pos hopens, List.filterMap_append]
    refine (hown.append hsub ?_).congr ?_
    · rintro dirs f dirs' f' ⟨rfl, -⟩ ⟨d, ds, rfl, -⟩
      exact .fileFirst
    · intro dirs f
      cases dirs with
      | nil => simp
      | cons d ds =>
        simp only [reduceCtorEq, false_and, List.cons.injEq, false_or, Finds]
        constructor
        · rintro ⟨d, ds, ⟨rfl, rfl⟩, ⟨e, he, rfl⟩, hkept, hfinds⟩
          obtain ⟨m, hm, -⟩ := hentry e he
          have hm := (nodeAt_entry hn hnodup).mpr hm
          refine ⟨?_, hkept, hfinds⟩
          cases m with
          | dir inner => exact ⟨inner, hm⟩
          | file content => exact absurd hfinds (not_finds (w := w.enter e.1) hm rfl _ _)
          | link target => exact absurd hfinds (not_finds (w := w.enter e.1) hm rfl _ _)
        · rintro ⟨⟨inner, hm⟩, hkept, hfinds⟩
          have he := Node.mem_ordered (e := (d, (Node.dir inner).sorted)).mpr
            ⟨.dir inner, (nodeAt_entry hn hnodup).mp hm, rfl⟩
          exact ⟨d, ds, ⟨rfl, rfl⟩, ⟨_, he, rfl⟩, hkept, hfinds⟩

def LeadsToDirectory (t : FileTree) (place : List String) (name : String) : Prop :=
  (∃ entries, t.nodeAt (place ++ [name]) = some (.dir entries)) ∨
  ∃ target reached entries, t.nodeAt (place ++ [name]) = some (.link target) ∧
    t.locate place ⟨.relative, [name]⟩ = .ok (reached, .dir entries)

theorem leadsToDir_iff {place : List String} {name : String} {n : Node}
    (h : t.nodeAt (place ++ [name]) = some n) :
    t.leadsToDir place (name, n) = true ↔ t.LeadsToDirectory place name := by
  unfold LeadsToDirectory
  rw [h]
  cases n with
  | file content => simp [leadsToDir]
  | dir entries => simp [leadsToDir]
  | link target =>
    simp only [leadsToDir]
    cases t.locate place ⟨.relative, [name]⟩ with
    | error e => simp
    | ok x =>
      obtain ⟨reached, m⟩ := x
      cases m <;> simp [Node.isDir]

/-- A Go file below the directory at `here`, which is reached by `start`, outside of `.git` and of
the vendor directory at the top. -/
structure GoFileBelow (t : FileTree) (start : Path) (here : List String) (vendor : String)
    (dirs : List String) (f : String) : Prop where
  /-- It is an entry, and no link stands on the way to it. -/
  stands : ∃ n, t.nodeAt (here ++ dirs ++ [f]) = some n
  noDirectory : ¬ t.LeadsToDirectory (here ++ dirs) f
  ending : ".go".toList <:+ f.toList
  visible : f.toList.head? ≠ some '.'
  noGit : ".git" ∉ dirs
  noVendor : dirs.head? ≠ some vendor
  /-- The path of its directory is not too long for a directory to be opened by it. -/
  opened : start.sizeBelow dirs ≤ maxPathSize

structure InWalk (t : FileTree) (start : Path) (here : List String) (rules : WalkRules)
    (dirs : List String) (f : String) : Prop extends
    GoFileBelow t start here rules.vendor dirs f where
  dirsKept : ∀ ds, ds <+: dirs → ds ≠ [] → rules.ignored ("/".intercalate ds ++ "/") = false
  kept : rules.ignored ("/".intercalate (dirs ++ [f])) = false

def slashed : List String → String
  | [] => ""
  | d :: ds => d ++ "/" ++ slashed ds

theorem slashed_append (dirs : List String) (f : String) :
    slashed dirs ++ f = "/".intercalate (dirs ++ [f]) := by
  induction dirs with
  | nil => simp [slashed]
  | cons d ds ih =>
    rw [List.cons_append, String.intercalate_cons_of_ne_nil (by simp), ← ih, slashed,
      String.append_assoc]

theorem slashed_of_ne_nil {dirs : List String} (h : dirs ≠ []) :
    slashed dirs = "/".intercalate dirs ++ "/" := by
  induction dirs with
  | nil => exact absurd rfl h
  | cons d ds ih =>
    cases ds with
    | nil => simp [slashed]
    | cons e es =>
      rw [slashed, ih (by simp), String.intercalate_cons_cons]
      simp only [String.append_assoc]

theorem leavesOut_eq_false_iff {d : String} : w.leavesOut rules d = false ↔
    d ≠ ".git" ∧ (w.isTop = true → d ≠ rules.vendor) ∧
      rules.ignored (w.below ++ d ++ "/") = false := by
  cases htop : w.isTop <;> simp [WalkPlace.leavesOut, htop, and_assoc]

theorem isTop_enter (w : WalkPlace) (d : String) : (w.enter d).isTop = false := by
  have hne : w.below ++ d ++ "/" ≠ "" := by
    intro h
    simpa using congrArg String.toList h
  exact beq_eq_false_iff_ne.mpr hne

theorem isDir_of_nodeAt_below {place names : List String} {f : String} {n : Node}
    (h : t.nodeAt (place ++ (names ++ [f])) = some n) :
    ∃ entries, t.nodeAt place = some (.dir entries) := by
  rw [nodeAt_append] at h
  obtain ⟨m, hm, hrest⟩ := Option.bind_eq_some_iff.mp h
  cases m with
  | dir entries => exact ⟨entries, hm⟩
  | file content => cases names <;> simp [Node.nodeAt] at hrest
  | link target => cases names <;> simp [Node.nodeAt] at hrest

/-- No directory on the way is ignored if the first one is not, nor one on the rest of the way. -/
theorem forall_prefix_cons {below d : String} {ds : List String} {p : String → Prop} :
    (∀ ps, ps <+: d :: ds → ps ≠ [] → p (below ++ slashed ps)) ↔
      p (below ++ d ++ "/") ∧ ∀ ps, ps <+: ds → ps ≠ [] → p (below ++ d ++ "/" ++ slashed ps) := by
  constructor
  · intro h
    constructor
    · simpa [slashed, String.append_assoc] using h [d] (by simp) (by simp)
    · intro ps hps _
      simpa [slashed, String.append_assoc] using h (d :: ps) (by simpa using hps) (by simp)
  · rintro ⟨hfirst, hrest⟩ ps hps hne
    cases ps with
    | nil => exact absurd rfl hne
    | cons e es =>
      obtain ⟨rfl, hes⟩ := List.cons_prefix_cons.mp hps
      by_cases hnil : es = []
      · simpa [hnil, slashed, String.append_assoc] using hfirst
      · simpa [slashed, String.append_assoc] using hrest es hes hnil

/-- The walk from a place comes to a file if neither its directories, seen one after the other, nor
the file itself are left out. -/
theorem finds_iff (dirs : List String) (f : String) (w : WalkPlace) :
    t.Finds rules w dirs f ↔ (∃ n, t.nodeAt (w.here ++ dirs ++ [f]) = some n) ∧
      dirs.foldl (fun size d => size + (d.utf8ByteSize + 1)) w.size ≤ maxPathSize ∧
      ¬ t.LeadsToDirectory (w.here ++ dirs) f ∧ isGoFile f = true ∧ ".git" ∉ dirs ∧
      (w.isTop = true → dirs.head? ≠ some rules.vendor) ∧
      (∀ ds, ds <+: dirs → ds ≠ [] → rules.ignored (w.below ++ slashed ds) = false) ∧
      rules.ignored (w.below ++ slashed dirs ++ f) = false := by
  induction dirs generalizing w with
  | nil =>
    simp only [Finds, WalkPlace.opens, decide_eq_true_eq, List.append_nil, slashed,
      String.append_empty, List.not_mem_nil, not_false_eq_true, true_and, List.head?_nil, ne_eq,
      reduceCtorEq, implies_true, List.prefix_nil, List.foldl_nil]
    constructor
    · rintro ⟨hopens, n, hn, hleads, hgo, hkept⟩
      refine ⟨⟨n, hn⟩, hopens, ?_, hgo, fun ds hds hne => absurd hds hne, hkept⟩
      rw [← leadsToDir_iff hn, hleads]
      simp
    · rintro ⟨⟨n, hn⟩, hopens, hleads, hgo, -, hkept⟩
      exact ⟨hopens, n, hn, by rwa [← leadsToDir_iff hn, Bool.not_eq_true] at hleads, hgo, hkept⟩
  | cons d ds ih =>
    rw [Finds, leavesOut_eq_false_iff, ih, isTop_enter,
      forall_prefix_cons (p := (rules.ignored · = false))]
    simp only [WalkPlace.enter, slashed, String.append_assoc, List.append_assoc, List.cons_append,
      List.nil_append, List.mem_cons, not_or, List.head?_cons, ne_eq, Option.some.injEq,
      Bool.false_eq_true, false_implies, true_and, ne_comm (a := ".git"), List.foldl_cons]
    constructor
    · rintro ⟨-, ⟨hgit, hvendor, hfirst⟩, hstands, hsize, hleads, hgo, hgits, hrest, hkept⟩
      exact ⟨hstands, hsize, hleads, hgo, ⟨hgit, hgits⟩, hvendor, ⟨hfirst, hrest⟩, hkept⟩
    · rintro ⟨⟨n, hn⟩, hsize, hleads, hgo, ⟨hgit, hgits⟩, hvendor, ⟨hfirst, hrest⟩, hkept⟩
      refine ⟨?_, ⟨hgit, hvendor, hfirst⟩, ⟨n, hn⟩, hsize, hleads, hgo, hgits, hrest, hkept⟩
      have hbelow : t.nodeAt ((w.here ++ [d]) ++ (ds ++ [f])) = some n := by simpa using hn
      exact isDir_of_nodeAt_below hbelow

theorem isGoFile_iff {f : String} :
    isGoFile f = true ↔ ".go".toList <:+ f.toList ∧ f.toList.head? ≠ some '.' := by
  simp [isGoFile, -String.toList_ofList]

theorem finds_iff_inWalk (here : List String) (start : Path) (dirs : List String) (f : String) :
    t.Finds rules (.top here start) dirs f ↔ t.InWalk start here rules dirs f := by
  have hdirs : (∀ ds, ds <+: dirs → ds ≠ [] → rules.ignored ("" ++ slashed ds) = false) ↔
      ∀ ds, ds <+: dirs → ds ≠ [] → rules.ignored ("/".intercalate ds ++ "/") = false := by
    refine forall_congr' fun ds => forall_congr' fun _ => forall_congr' fun hne => ?_
    rw [String.empty_append, slashed_of_ne_nil hne]
  have hfile : "" ++ slashed dirs ++ f = "/".intercalate (dirs ++ [f]) := by
    rw [String.empty_append, slashed_append]
  rw [finds_iff, isGoFile_iff]
  simp only [WalkPlace.top, hdirs, hfile]
  constructor
  · rintro ⟨hstands, hsize, hleads, ⟨hending, hvisible⟩, hgit, hvendor, hdirs, hkept⟩
    exact ⟨⟨hstands, hleads, hending, hvisible, hgit, hvendor rfl, hsize⟩, hdirs, hkept⟩
  · rintro ⟨⟨hstands, hleads, hending, hvisible, hgit, hvendor, hsize⟩, hdirs, hkept⟩
    exact ⟨hstands, hsize, hleads, ⟨hending, hvisible⟩, hgit, fun _ => hvendor, hdirs, hkept⟩

theorem listsFiles_visits {cwd here : List String} {start : Path} {entries : List (String × Node)}
    (hwf : t.WellFormed) (hstart : t.locate cwd start = .ok (here, .dir entries))
    (rules : WalkRules) :
    ∃ visits, t.visits cwd start rules = .ok visits ∧
      ListsFiles (visits.filterMap Visit.file?) start (t.InWalk start here rules) := by
  have hnul : start.hasNul = false := by
    unfold locate at hstart
    split_ifs at hstart with h
    simpa using h
  have hnode : t.nodeAt here = some (.dir entries) := nodeAt_of_locate hstart
  refine ⟨t.dirVisits rules (.top here start) (Node.dir entries).sorted, ?_, ?_⟩
  · simp only [visits, hnul, hstart, Bool.false_eq_true, if_false]
  · have hlists := listsFiles_dirVisits rules (.dir entries) (.top here start) hnode
      (Node.WellFormed.nodeAt hwf hnode)
    exact hlists.congr (finds_iff_inWalk here start)

end FileTree

end ImportGroups
