import ImportGroups.Proofs.OwnPackages

/-!
Which of its sources names the root package.

A request decides alone. Without one the first GOPATH entry that the working directory lies below
decides, even if it gives nothing; where there is none the nearest module file does, and no other one
is looked at. The name that comes out is not empty, but for a module that is called by a single slash.
-/

namespace ImportGroups

namespace FileTree

def Misses (t : FileTree) (cwd place : List String) (entry : String) : Prop :=
  ∃ top, t.resolve cwd (Path.ofString entry) = .ok top ∧ ∀ parts, place ≠ top ++ ["src"] ++ parts

section Gopath

variable {t : FileTree} {cwd place parts : List String} {entry : String} {entries : List String}

theorem below?_eq_none_iff {top place : List String} :
    below? top place = none ↔ ∀ parts, place ≠ top ++ parts := by
  constructor
  · intro h parts hparts
    rw [below?_eq_some_iff.mpr hparts] at h
    cases h
  · intro h
    cases hb : below? top place with
    | none => rfl
    | some parts => exact absurd (below?_eq_some_iff.mp hb) (h parts)

theorem go_of_misses (h : t.Misses cwd place entry) (rest : List String) :
    rootFromGopath.go t cwd place (entry :: rest) = rootFromGopath.go t cwd place rest := by
  obtain ⟨top, htop, hparts⟩ := h
  rw [rootFromGopath.go, htop]
  dsimp only
  rw [below?_eq_none_iff.mpr hparts]

theorem go_of_all_miss {before : List String} (h : ∀ e ∈ before, t.Misses cwd place e)
    (rest : List String) :
    rootFromGopath.go t cwd place (before ++ rest) = rootFromGopath.go t cwd place rest := by
  induction before with
  | nil => rfl
  | cons e before ih =>
    obtain ⟨he, hbefore⟩ := List.forall_mem_cons.mp h
    rw [List.cons_append, go_of_misses he, ih hbefore]

theorem go_of_deciding (h : t.DecidingEntry cwd entries place entry parts) :
    rootFromGopath.go t cwd place entries =
      if parts.length < rootDepth then .error (.refused .tooShallow)
      else .ok ("/".intercalate (parts.take rootDepth)) := by
  obtain ⟨⟨before, after, rfl, hbefore⟩, top, htop, hplace⟩ := h
  rw [go_of_all_miss hbefore, rootFromGopath.go, htop]
  dsimp only
  rw [below?_eq_some_iff.mpr hplace]

theorem entries_cases (t : FileTree) (cwd place entries : List String) :
    (∃ entry parts, t.DecidingEntry cwd entries place entry parts) ∨
      (∀ e ∈ entries, t.Misses cwd place e) ∨
      ∃ f, rootFromGopath.go t cwd place entries = .error (.fault f) := by
  induction entries with
  | nil => exact .inr (.inl (by simp))
  | cons e rest ih =>
    cases htop : t.resolve cwd (Path.ofString e) with
    | error f => exact .inr (.inr ⟨f, by rw [rootFromGopath.go, htop]⟩)
    | ok top =>
      cases hb : below? (top ++ ["src"]) place with
      | some parts =>
        exact .inl ⟨e, parts, ⟨[], rest, rfl, by simp⟩, top, htop, below?_eq_some_iff.mp hb⟩
      | none =>
        have hmiss : t.Misses cwd place e := ⟨top, htop, below?_eq_none_iff.mp hb⟩
        rcases ih with ⟨entry, parts, ⟨before, after, rfl, hbefore⟩, hbelow⟩ | hall | ⟨f, hf⟩
        · refine .inl ⟨entry, parts, ⟨e :: before, after, rfl, ?_⟩, hbelow⟩
          exact List.forall_mem_cons.mpr ⟨hmiss, hbefore⟩
        · exact .inr (.inl (List.forall_mem_cons.mpr ⟨hmiss, hall⟩))
        · exact .inr (.inr ⟨f, by rw [go_of_misses hmiss, hf]⟩)

def outsideError (gopath : String) : RootError :=
  if gopathEntries gopath = [] then .noGopath else .outsideGopath

theorem rootFromGopath_of_entries {dir : Path} {gopath : String}
    (hplace : t.resolve cwd dir = .ok place) (hentries : gopathEntries gopath ≠ []) :
    t.rootFromGopath cwd dir gopath = rootFromGopath.go t cwd place (gopathEntries gopath) := by
  rw [rootFromGopath]
  split
  · exact absurd ‹_› hentries
  · rw [hplace]

theorem rootFromGopath_of_misses {dir : Path} {gopath : String}
    (hplace : t.resolve cwd dir = .ok place)
    (h : ∀ e ∈ gopathEntries gopath, t.Misses cwd place e) :
    t.rootFromGopath cwd dir gopath = .error (.refused (outsideError gopath)) := by
  by_cases hentries : gopathEntries gopath = []
  · rw [rootFromGopath, hentries, outsideError, if_pos hentries]
  · have hgo := go_of_all_miss h []
    rw [List.append_nil] at hgo
    rw [rootFromGopath_of_entries hplace hentries, hgo, outsideError, if_neg hentries]
    rfl

end Gopath

def goModIn (d : List String) : Path := (Path.absolute d).child goModName

structure NearestModule (t : FileTree) (place d : List String) : Prop where
  above : d <+: place
  isFile : t.isFile [] (goModIn d) = .ok true
  deepest : ∀ e, e <+: place → d.length < e.length → t.isFile [] (goModIn e) = .ok false

def NoModule (t : FileTree) (cwd place : List String) : Prop :=
  (∀ d, d <+: place → t.isFile [] (goModIn d) = .ok false) ∨
    ∃ d, t.NearestModule place d ∧ (t.readModulePath cwd (goModIn d) = .ok none ∨
      ∃ e, t.readModulePath cwd (goModIn d) = .error (.refused e))

section Modules

variable {t : FileTree} {cwd place d : List String}

theorem candidate_of_isFile {insideOut : List String} {b : Bool}
    (h : t.isFile [] (goModIn insideOut.reverse) = .ok b) :
    goModAbove?.candidate t insideOut =
      .ok (if b then some (goModIn insideOut.reverse) else none) := by
  rw [goModAbove?.candidate, ← goModIn, h]
  rfl

theorem goModAbove?_cons {name : String} {above : List String}
    (h : t.isFile [] (goModIn (above.reverse ++ [name])) = .ok false) :
    t.goModAbove? (name :: above) = t.goModAbove? above := by
  have hcandidate : goModAbove?.candidate t (name :: above) = .ok none :=
    candidate_of_isFile (b := false) (by rwa [List.reverse_cons])
  rw [goModAbove?, hcandidate]
  rfl

theorem goModAbove?_here {insideOut : List String}
    (h : t.isFile [] (goModIn insideOut.reverse) = .ok true) :
    t.goModAbove? insideOut = .ok (some (goModIn insideOut.reverse)) := by
  have hcandidate := candidate_of_isFile h
  cases insideOut with
  | nil => rwa [goModAbove?]
  | cons name above =>
    rw [goModAbove?, hcandidate]
    rfl

theorem goModAbove?_of_nearest {insideOut : List String}
    (h : t.NearestModule insideOut.reverse d) :
    t.goModAbove? insideOut = .ok (some (goModIn d)) := by
  induction insideOut with
  | nil =>
    obtain rfl : d = [] := List.prefix_nil.mp h.above
    exact goModAbove?_here h.isFile
  | cons name above ih =>
    obtain ⟨habove, hfile, hdeepest⟩ := h
    rw [List.reverse_cons] at habove hdeepest
    rcases List.prefix_concat_iff.mp habove with rfl | hd
    · rw [← List.reverse_cons] at hfile ⊢
      exact goModAbove?_here hfile
    · have hlt : d.length < (above.reverse ++ [name]).length := by
        have := hd.length_le
        simp only [List.length_append, List.length_singleton]
        omega
      rw [goModAbove?_cons (hdeepest _ List.prefix_rfl hlt)]
      exact ih ⟨hd, hfile, fun e he hlt => hdeepest e (he.trans (List.prefix_append _ _)) hlt⟩

theorem goModAbove?_of_none {insideOut : List String}
    (h : ∀ e, e <+: insideOut.reverse → t.isFile [] (goModIn e) = .ok false) :
    t.goModAbove? insideOut = .ok none := by
  induction insideOut with
  | nil =>
    rw [goModAbove?]
    exact candidate_of_isFile (b := false) (h [] List.nil_prefix)
  | cons name above ih =>
    rw [List.reverse_cons] at h
    rw [goModAbove?_cons (h _ List.prefix_rfl)]
    exact ih fun e he => h e (he.trans (List.prefix_append _ _))

theorem goModAbove?_fault {insideOut : List String} {f : Fault}
    (h : t.isFile [] (goModIn insideOut.reverse) = .error f) :
    t.goModAbove? insideOut = .error f := by
  have hcandidate : goModAbove?.candidate t insideOut = .error f := by
    rw [goModAbove?.candidate, ← goModIn, h]
    rfl
  cases insideOut with
  | nil => rwa [goModAbove?]
  | cons name above =>
    rw [goModAbove?, hcandidate]
    rfl

theorem nearestModule_here (h : t.isFile [] (goModIn place) = .ok true) :
    t.NearestModule place place :=
  ⟨List.prefix_rfl, h, fun _ he hlt => absurd he.length_le (Nat.not_le_of_lt hlt)⟩

theorem goModAbove?_cases (t : FileTree) (insideOut : List String) :
    (∃ d, t.NearestModule insideOut.reverse d) ∨
      (∀ e, e <+: insideOut.reverse → t.isFile [] (goModIn e) = .ok false) ∨
      ∃ f, t.goModAbove? insideOut = .error f := by
  rcases hfile : t.isFile [] (goModIn insideOut.reverse) with f | b
  · exact .inr (.inr ⟨f, goModAbove?_fault hfile⟩)
  cases b with
  | true => exact .inl ⟨_, nearestModule_here hfile⟩
  | false =>
    match insideOut with
    | [] => exact .inr (.inl fun e he => by rwa [List.prefix_nil.mp he])
    | name :: above =>
      rw [List.reverse_cons] at hfile ⊢
      rcases goModAbove?_cases t above with ⟨d, habove, hd, hdeepest⟩ | hnone | ⟨f, hf⟩
      · refine .inl ⟨d, habove.trans (List.prefix_append _ _), hd, fun e he hlt => ?_⟩
        rcases List.prefix_concat_iff.mp he with rfl | he
        · exact hfile
        · exact hdeepest e he hlt
      · refine .inr (.inl fun e he => ?_)
        rcases List.prefix_concat_iff.mp he with rfl | he
        · exact hfile
        · exact hnone e he
      · exact .inr (.inr ⟨f, by rw [goModAbove?_cons hfile, hf]⟩)

variable {dir : Path}

theorem findGoMod_eq (hplace : t.resolve cwd dir = .ok place) :
    t.findGoMod cwd dir = t.goModAbove? place.reverse := by
  rw [findGoMod, hplace]
  rfl

theorem rootFromModule_of_nearest {m : String} (hplace : t.resolve cwd dir = .ok place)
    (hd : t.NearestModule place d) (hm : t.readModulePath cwd (goModIn d) = .ok (some m))
    (e : RootError) :
    t.rootFromModule cwd dir e = .ok ⟨ownerPrefix m, .module (goModIn d)⟩ := by
  have hfind : t.findGoMod cwd dir = .ok (some (goModIn d)) := by
    rw [findGoMod_eq hplace, goModAbove?_of_nearest (by rwa [List.reverse_reverse])]
  rw [rootFromModule, hfind]
  dsimp only
  rw [hm]

theorem rootFromModule_of_noModule (hplace : t.resolve cwd dir = .ok place)
    (h : t.NoModule cwd place) (e : RootError) :
    t.rootFromModule cwd dir e = .error (.refused e) := by
  rw [rootFromModule, findGoMod_eq hplace]
  rcases h with hnone | ⟨d, hd, hread⟩
  · rw [goModAbove?_of_none (by rwa [List.reverse_reverse])]
  · rw [goModAbove?_of_nearest (by rwa [List.reverse_reverse])]
    dsimp only
    rcases hread with hread | ⟨x, hread⟩ <;> rw [hread]

/-- A module is named, or none is, or an access to a module file breaks off. -/
theorem module_cases (hplace : t.resolve cwd dir = .ok place) (e : RootError) :
    (∃ d m, t.NearestModule place d ∧ t.readModulePath cwd (goModIn d) = .ok (some m)) ∨
      t.NoModule cwd place ∨ ∃ f, t.rootFromModule cwd dir e = .error (.fault f) := by
  have hcases := goModAbove?_cases t place.reverse
  rw [List.reverse_reverse] at hcases
  rcases hcases with ⟨d, hd⟩ | hnone | ⟨f, hf⟩
  · rcases hread : t.readModulePath cwd (goModIn d) with (x | f) | m?
    · exact .inr (.inl (.inr ⟨d, hd, .inr ⟨x, hread⟩⟩))
    · refine .inr (.inr ⟨f, ?_⟩)
      rw [rootFromModule, findGoMod_eq hplace, goModAbove?_of_nearest (by rwa [List.reverse_reverse])]
      dsimp only
      rw [hread]
    · cases m? with
      | none => exact .inr (.inl (.inr ⟨d, hd, .inl hread⟩))
      | some m => exact .inl ⟨d, m, hd, hread⟩
  · exact .inr (.inl (.inl hnone))
  · refine .inr (.inr ⟨f, ?_⟩)
    rw [rootFromModule, findGoMod_eq hplace, hf]

end Modules

section Sources

variable {t : FileTree} {cwd place parts d : List String} {dir : Path} {gopath entry : String}

theorem DecidingEntry.ne_nil {entries : List String}
    (h : t.DecidingEntry cwd entries place entry parts) : entries ≠ [] := by
  obtain ⟨⟨before, after, rfl, -⟩, -⟩ := h
  simp

theorem resolveRoot_of_deciding (hplace : t.resolve cwd dir = .ok place)
    (h : t.DecidingEntry cwd (gopathEntries gopath) place entry parts) :
    t.resolveRoot cwd dir gopath none =
      if parts.length < rootDepth then .error (.refused .tooShallow)
      else .ok ⟨"/".intercalate (parts.take rootDepth), .gopath⟩ := by
  rw [resolveRoot, rootFromGopath_of_entries hplace h.ne_nil, go_of_deciding h]
  split_ifs <;> rfl

theorem resolveRoot_of_misses (hplace : t.resolve cwd dir = .ok place)
    (h : ∀ e ∈ gopathEntries gopath, t.Misses cwd place e) :
    t.resolveRoot cwd dir gopath none = t.rootFromModule cwd dir (outsideError gopath) := by
  rw [resolveRoot, rootFromGopath_of_misses hplace h, outsideError]
  split_ifs <;> rfl

theorem resolveRoot_of_unresolved {f : Fault} (h : t.resolve cwd dir = .error f) :
    t.resolveRoot cwd dir gopath none = .error (.fault f) := by
  have hfind : t.findGoMod cwd dir = .error f := by
    rw [findGoMod, h]
    rfl
  have hgopath : t.rootFromGopath cwd dir gopath = .error (.refused .noGopath) ∨
      t.rootFromGopath cwd dir gopath = .error (.fault f) := by
    rw [rootFromGopath]
    split
    · exact .inl rfl
    · exact .inr (by rw [h])
  rcases hgopath with hgopath | hgopath
  · rw [resolveRoot, hgopath]
    show t.rootFromModule cwd dir .noGopath = .error (.fault f)
    rw [rootFromModule, hfind]
  · rw [resolveRoot, hgopath]

theorem resolveRoot_of_unresolved_entry {f : Fault} (hplace : t.resolve cwd dir = .ok place)
    (h : rootFromGopath.go t cwd place (gopathEntries gopath) = .error (.fault f)) :
    t.resolveRoot cwd dir gopath none = .error (.fault f) := by
  have hentries : gopathEntries gopath ≠ [] := by
    intro hnil
    rw [hnil, rootFromGopath.go] at h
    cases h
  rw [resolveRoot, rootFromGopath_of_entries hplace hentries, h]

theorem resolveRoot_some (t : FileTree) (cwd : List String) (dir : Path) (gopath s : String) :
    t.resolveRoot cwd dir gopath (some s) =
      if Text.trimChar '/' (Text.trimBlank s) = "" then .error (.refused .emptyOverride)
      else .ok ⟨Text.trimChar '/' (Text.trimBlank s), .requested⟩ := by
  rw [resolveRoot]
  simp only [beq_iff_eq]

/-- Without a request one of the sources decides, unless an access breaks off. -/
theorem source_cases (t : FileTree) (cwd : List String) (dir : Path) (gopath : String) :
    (∃ f, t.resolveRoot cwd dir gopath none = .error (.fault f)) ∨
      ∃ place, t.resolve cwd dir = .ok place ∧
        ((∃ entry parts, t.DecidingEntry cwd (gopathEntries gopath) place entry parts) ∨
          (∀ e ∈ gopathEntries gopath, t.Misses cwd place e) ∧
            ((∃ d m, t.NearestModule place d ∧
              t.readModulePath cwd (goModIn d) = .ok (some m)) ∨ t.NoModule cwd place)) := by
  cases hplace : t.resolve cwd dir with
  | error f => exact .inl ⟨f, resolveRoot_of_unresolved hplace⟩
  | ok place =>
    rcases entries_cases t cwd place (gopathEntries gopath) with hentry | hmiss | ⟨f, hf⟩
    · exact .inr ⟨place, rfl, .inl hentry⟩
    · rcases module_cases hplace (outsideError gopath) with hmodule | hnone | ⟨f, hf⟩
      · exact .inr ⟨place, rfl, .inr ⟨hmiss, .inl hmodule⟩⟩
      · exact .inr ⟨place, rfl, .inr ⟨hmiss, .inr hnone⟩⟩
      · exact .inl ⟨f, (resolveRoot_of_misses hplace hmiss).trans hf⟩
    · exact .inl ⟨f, resolveRoot_of_unresolved_entry hplace hf⟩

end Sources

/-- The sources of the root package come in this order: the request, the first GOPATH entry that the
working directory lies below, the nearest module file. The first of them that there is decides. -/
theorem resolveRoot_precedence (t : FileTree) (cwd : List String) (dir : Path) (gopath : String) :
    (∀ s, t.resolveRoot cwd dir gopath (some s) =
      if Text.trimChar '/' (Text.trimBlank s) = "" then .error (.refused .emptyOverride)
      else .ok ⟨Text.trimChar '/' (Text.trimBlank s), .requested⟩) ∧
    (∀ place entry parts, t.resolve cwd dir = .ok place →
      t.DecidingEntry cwd (gopathEntries gopath) place entry parts →
      t.resolveRoot cwd dir gopath none =
        if parts.length < 2 then .error (.refused .tooShallow)
        else .ok ⟨"/".intercalate (parts.take 2), .gopath⟩) ∧
    (∀ place, t.resolve cwd dir = .ok place →
      (∀ e ∈ gopathEntries gopath, t.Misses cwd place e) →
      (∀ d m, t.NearestModule place d → t.readModulePath cwd (goModIn d) = .ok (some m) →
        t.resolveRoot cwd dir gopath none =
          .ok ⟨"/".intercalate ((Text.segments '/' m).take 2), .module (goModIn d)⟩) ∧
      (t.NoModule cwd place → t.resolveRoot cwd dir gopath none =
        .error (.refused (if gopathEntries gopath = [] then .noGopath else .outsideGopath)))) ∧
    ((∃ f, t.resolveRoot cwd dir gopath none = .error (.fault f)) ∨
      ∃ place, t.resolve cwd dir = .ok place ∧
        ((∃ entry parts, t.DecidingEntry cwd (gopathEntries gopath) place entry parts) ∨
          (∀ e ∈ gopathEntries gopath, t.Misses cwd place e) ∧
            ((∃ d m, t.NearestModule place d ∧
              t.readModulePath cwd (goModIn d) = .ok (some m)) ∨ t.NoModule cwd place))) := by
  refine ⟨resolveRoot_some t cwd dir gopath, ?_, ?_, source_cases t cwd dir gopath⟩
  · intro place entry parts hplace hentry
    exact resolveRoot_of_deciding hplace hentry
  intro place hplace hmiss
  constructor
  · intro d m hd hm
    rw [resolveRoot_of_misses hplace hmiss]
    exact rootFromModule_of_nearest hplace hd hm _
  · intro hnone
    rw [resolveRoot_of_misses hplace hmiss]
    exact rootFromModule_of_noModule hplace hnone _

theorem linkCount_lookup {entries : List (String × Node)} {name : String} {n : Node}
    (h : entries.lookup name = some n) : n.linkCount ≤ Node.linkCount.go entries := by
  induction entries with
  | nil => cases h
  | cons entry entries ih =>
    obtain ⟨other, m⟩ := entry
    rw [Node.linkCount.go]
    rw [List.lookup_cons] at h
    split at h
    · cases h
      exact Nat.le_add_right _ _
    · exact (ih h).trans (Nat.le_add_left _ _)

theorem linkCount_nodeAt {n m : Node} {place : List String} (h : n.nodeAt place = some m) :
    m.linkCount ≤ n.linkCount := by
  induction place generalizing n with
  | nil =>
    cases h
    exact le_rfl
  | cons name place ih =>
    cases n with
    | file content => cases h
    | link target => cases h
    | dir entries =>
      rw [Node.nodeAt] at h
      split at h
      · rename_i inner hlookup
        rw [Node.linkCount]
        exact (ih h).trans (linkCount_lookup hlookup)
      · cases h

def IsEntryName (name : String) : Prop :=
  name ≠ "" ∧ name ≠ "." ∧ name ≠ ".." ∧ '\x00' ∉ name.toList

instance (name : String) : Decidable (IsEntryName name) :=
  inferInstanceAs (Decidable (_ ∧ _ ∧ _ ∧ _))

theorem placeOf_names {cwd names : List String} (h : ∀ name ∈ names, IsEntryName name) :
    placeOf cwd (Path.absolute names) = names := by
  have hfold : ∀ place : List String, names.foldl
      (fun place name => if name == ".." then place.dropLast else place ++ [name]) place =
        place ++ names := by
    induction names with
    | nil => exact fun place => (List.append_nil place).symm
    | cons name names ih =>
      intro place
      obtain ⟨⟨-, -, hup, -⟩, hnames⟩ := List.forall_mem_cons.mp h
      rw [List.foldl_cons, if_neg (by simpa using hup), ih hnames, List.append_assoc,
        List.singleton_append]
  exact hfold []

theorem hasNul_names {names : List String} (h : ∀ name ∈ names, IsEntryName name) :
    (Path.absolute names).hasNul = false := by
  simpa [Path.hasNul, Path.absolute] using fun name hname => (h name hname).2.2.2

section Linkless

variable {t : FileTree} (hlinks : t.root.linkCount = 0)

include hlinks

theorem not_link {place : List String} {target : String} :
    t.nodeAt place ≠ some (.link target) := by
  intro h
  have hcount := linkCount_nodeAt h
  rw [hlinks, Node.linkCount] at hcount
  exact absurd hcount (by decide)

theorem locateFrom_not_tooManyLinks (links : Nat) (here rest : List String) :
    t.locateFrom links here rest ≠ .error .tooManyLinks := by
  induction rest generalizing here with
  | nil =>
    rw [locateFrom]
    split <;> simp
  | cons name rest ih =>
    rw [locateFrom]
    split
    · exact ih here
    split
    · exact ih here.dropLast
    split
    · simp
    split
    · simp
    · exact ih (here ++ [name])
    · split <;> simp
    · rename_i hlink
      exact absurd hlink (not_link hlinks)

theorem resolveFrom_names {cwd : List String} {depth : Nat} {notes : LinkNotes} {here : Path}
    {names : List String} (h : ∀ name ∈ names, IsEntryName name) :
    t.resolveFrom cwd depth notes here names =
      (.reached { here with parts := here.parts ++ names }, notes) := by
  induction names generalizing here with
  | nil => rw [resolveFrom, List.append_nil]
  | cons name names ih =>
    obtain ⟨⟨hempty, hdot, hup, hnul⟩, hnames⟩ := List.forall_mem_cons.mp h
    rw [resolveFrom, if_neg (by simp [hempty, hdot]), if_neg (by simpa using hup),
      if_neg (by simpa using hnul)]
    dsimp only
    split
    · rename_i hlink
      exact absurd hlink (not_link hlinks)
    · rw [ih hnames, List.append_assoc, List.singleton_append]

theorem resolve_names {cwd names : List String} (h : ∀ name ∈ names, IsEntryName name) :
    t.resolve cwd (Path.absolute names) = .ok names := by
  have hreached : (t.resolveFrom cwd (t.linkDepth cwd) [] (Path.absolute [])
      (Path.absolute names).parts).1 = .reached (Path.absolute names) :=
    congrArg Prod.fst (resolveFrom_names hlinks h)
  have hlocate : t.locate [] (Path.absolute names) ≠ .error .tooManyLinks := by
    rw [locate, if_neg (by simp [hasNul_names h])]
    split
    · simp
    · exact locateFrom_not_tooManyLinks hlinks _ _ _
  have habsolute : (Path.absolute names).isAbsolute = true := rfl
  rw [resolve, if_pos habsolute, hreached]
  dsimp only
  rw [placeOf_names h, if_neg (by simp [hasNul_names h])]
  split
  · rename_i hloop
    exact absurd hloop hlocate
  · rfl

end Linkless

/-- A working directory two levels below the sources of the second entry. -/
def userTree : FileTree where
  entries := [("g", .dir [("src", .dir [("h", .dir [("u", .dir [("p", .dir [])])])])])]

theorem resolveRoot_precedence_userTree :
    userTree.resolveRoot [] (Path.absolute ["g", "src", "h", "u", "p"]) "/x:/g" none =
      .ok ⟨"h/u", .gopath⟩ := by
  have hplace : userTree.resolve [] (Path.absolute ["g", "src", "h", "u", "p"]) =
      .ok ["g", "src", "h", "u", "p"] := resolve_names rfl (by decide +kernel)
  have hfirst : userTree.resolve [] (Path.ofString "/x") = .ok ["x"] := by
    rw [show Path.ofString "/x" = Path.absolute ["x"] by decide +kernel]
    exact resolve_names rfl (by decide +kernel)
  have hsecond : userTree.resolve [] (Path.ofString "/g") = .ok ["g"] := by
    rw [show Path.ofString "/g" = Path.absolute ["g"] by decide +kernel]
    exact resolve_names rfl (by decide +kernel)
  have hentries : gopathEntries "/x:/g" = ["/x", "/g"] := by decide +kernel
  have hentry : userTree.DecidingEntry [] (gopathEntries "/x:/g") ["g", "src", "h", "u", "p"] "/g"
      ["h", "u", "p"] := by
    refine ⟨⟨["/x"], [], hentries, ?_⟩, ["g"], hsecond, rfl⟩
    rintro e he
    obtain rfl := List.mem_singleton.mp he
    exact ⟨["x"], hfirst, below?_eq_none_iff.mp (by decide)⟩
  exact ((resolveRoot_precedence _ _ _ _).2.1 _ _ _ hplace hentry).trans (by decide +kernel)

end FileTree

namespace Text

theorem splitAt_filter_eq_nil_iff {c : Char} {cs : List Char} :
    (splitAt c cs).filter (· != []) = [] ↔ ∀ d ∈ cs, d = c := by
  induction cs with
  | nil => simp [splitAt]
  | cons d ds ih =>
    by_cases hd : d = c
    · simpa [splitAt, hd] using ih
    · obtain ⟨p, ps, hp⟩ := List.exists_cons_of_ne_nil (splitAt_ne_nil c ds)
      simp [splitAt, hd, hp]

theorem segments_eq_nil_iff {c : Char} {s : String} : segments c s = [] ↔ ∀ d ∈ s.toList, d = c := by
  rw [← List.map_eq_nil_iff (f := String.toList), map_toList_segments, splitAt_filter_eq_nil_iff]

theorem segment_ne_empty {c : Char} {s x : String} (h : x ∈ segments c s) : x ≠ "" := by
  simpa using (List.mem_filter.mp h).2

theorem SingleSlashes.eq_slash {s : String} (h : SingleSlashes s.toList) (hne : s ≠ "")
    (hnil : segments '/' s = []) : s = "/" := by
  rw [segments_eq_nil_iff] at hnil
  rw [← String.toList_inj]
  rcases hs : s.toList with _ | ⟨a, _ | ⟨b, cs⟩⟩
  · exact absurd (String.toList_inj.mp hs) hne
  · rw [hnil a (by simp [hs])]
    rfl
  · rw [hs] at h
    refine absurd ?_ (List.isChain_cons_cons.mp h).1
    exact ⟨hnil a (by simp [hs]), hnil b (by simp [hs])⟩

end Text

theorem intercalate_ne_empty {sep x : String} {xs : List String} (h : x ≠ "") :
    sep.intercalate (x :: xs) ≠ "" := by
  intro hempty
  have hfirst : sep.toList.intercalate [x.toList] <+:
      sep.toList.intercalate ((x :: xs).map String.toList) :=
    intercalate_isPrefix _ (by simp)
  rw [← String.toList_intercalate, hempty] at hfirst
  exact h (String.toList_inj.mp (by simpa using hfirst))

theorem ownerPrefix_eq_empty_iff {path : String} :
    ownerPrefix path = "" ↔ Text.segments '/' path = [] := by
  rw [ownerPrefix]
  cases hs : Text.segments '/' path with
  | nil => simp
  | cons x xs =>
    have hx : x ≠ "" := Text.segment_ne_empty (hs ▸ List.mem_cons_self)
    simpa [rootDepth] using intercalate_ne_empty hx

theorem intercalate_take_ne_empty {parts : List String} (h : ¬ parts.length < rootDepth) :
    "/".intercalate (parts.take rootDepth) ≠ "" := by
  rcases parts with _ | ⟨a, _ | ⟨b, parts⟩⟩
  · exact absurd (by decide) h
  · exact absurd Nat.one_lt_two h
  · rw [← String.toList_inj.ne]
    simp [rootDepth]

namespace FileTree

variable {t : FileTree} {cwd : List String} {dir : Path} {gopath : String} {r : RootPackage}

theorem readModulePath_line {file : Path} {path : String}
    (h : t.readModulePath cwd file = .ok (some path)) :
    ∃ line, modulePathOfLine? line = some (some path) := by
  unfold readModulePath at h
  split_ifs at h
  split at h
  · cases h
  · split at h
    · cases h
    · rename_i text _
      have hjoin : modulePath? text = some path := Except.ok.inj h
      obtain ⟨line, -, hline⟩ := List.exists_of_findSome?_eq_some (Option.join_eq_some_iff.mp hjoin)
      exact ⟨line, hline⟩

theorem modulePathOfLine?_ne_empty {line : List Char} {path : String}
    (h : modulePathOfLine? line = some (some path)) : path ≠ "" := by
  simp only [modulePathOfLine?, Option.ite_none_right_eq_some, Option.some.injEq,
    Option.ite_none_left_eq_some] at h
  obtain ⟨-, hne, rfl⟩ := h
  simpa using hne

theorem ownerPrefix_readModulePath {file : Path} {path : String}
    (h : t.readModulePath cwd file = .ok (some path)) : ownerPrefix path = "" ↔ path = "/" := by
  rw [ownerPrefix_eq_empty_iff]
  constructor
  · obtain ⟨line, hline⟩ := readModulePath_line h
    exact (singleSlashes_modulePathOfLine? hline).eq_slash (modulePathOfLine?_ne_empty hline)
  · rintro rfl
    decide +kernel

theorem resolveRoot_requested {s : String} (h : t.resolveRoot cwd dir gopath (some s) = .ok r) :
    r.origin = .requested ∧ r.name ≠ "" := by
  rw [resolveRoot_some] at h
  by_cases hname : Text.trimChar '/' (Text.trimBlank s) = ""
  · rw [if_pos hname] at h
    cases h
  · rw [if_neg hname] at h
    obtain rfl := Except.ok.inj h
    exact ⟨rfl, hname⟩

theorem resolveRoot_found (h : t.resolveRoot cwd dir gopath none = .ok r) :
    (r.origin = .gopath ∧ r.name ≠ "") ∨
      ∃ file path, t.readModulePath cwd file = .ok (some path) ∧
        r = ⟨ownerPrefix path, .module file⟩ := by
  rcases source_cases t cwd dir gopath with ⟨f, hf⟩ | ⟨place, hplace, ⟨entry, parts, hentry⟩ | hmiss⟩
  · rw [hf] at h
    cases h
  · rw [resolveRoot_of_deciding hplace hentry] at h
    split_ifs at h with hshallow
    cases h
    exact .inl ⟨rfl, intercalate_take_ne_empty hshallow⟩
  · rw [resolveRoot_of_misses hplace hmiss.1] at h
    obtain ⟨file, path, -, hpath, hr⟩ := rootFromModule_ok h
    exact .inr ⟨file, path, hpath, hr⟩

end FileTree

theorem classify_internal_iff {root : String} :
    (∀ path : String, '.' ∈ path.toList → classify root path = .internal) ↔ root = "" := by
  constructor
  · intro h
    rcases hroot : root.toList with _ | ⟨c, cs⟩
    · exact String.toList_inj.mp hroot
    · -- a path that starts with another character than the root
      have hstarts : ∀ d ds, '.' ∈ d :: ds → classify root (.ofList (d :: ds)) = .internal → c = d := by
        intro d ds hmem hinternal
        rw [classify, String.toList_ofList, if_pos (List.contains_iff_mem.mpr hmem), hroot] at hinternal
        by_cases hbegins : (c :: cs).isPrefixOf (d :: ds) = true
        · exact (List.cons_prefix_cons.mp (List.isPrefixOf_iff_prefix.mp hbegins)).1
        · rw [if_neg hbegins] at hinternal
          cases hinternal
      have hdot : c = '.' := hstarts '.' [] (by simp) (h _ (by simp))
      have hletter : c = 'a' := hstarts 'a' ['.'] (by simp) (h _ (by simp))
      exact absurd (hdot.symm.trans hletter) (by decide)
  · rintro rfl path hpath
    simp [classify, hpath]

/-- The root package has a name, unless it is that of a module which is called by a slash. With a name
it does not own every path that has a dot. -/
theorem root_empty_iff_slash_module (t : FileTree) (cwd : List String) (dir : Path) (gopath : String)
    (requested : Option String) (r : RootPackage)
    (h : t.resolveRoot cwd dir gopath requested = .ok r) :
    (r.name = "" ↔
      ∃ file, r.origin = .module file ∧ t.readModulePath cwd file = .ok (some "/")) ∧
    ((∀ path : String, '.' ∈ path.toList → classify r.name path = .internal) ↔ r.name = "") := by
  refine ⟨?_, classify_internal_iff⟩
  cases requested with
  | some s =>
    obtain ⟨horigin, hname⟩ := FileTree.resolveRoot_requested h
    simp [horigin, hname]
  | none =>
    rcases FileTree.resolveRoot_found h with ⟨horigin, hname⟩ | ⟨file, path, hpath, rfl⟩
    · simp [horigin, hname]
    · rw [FileTree.ownerPrefix_readModulePath hpath]
      constructor
      · rintro rfl
        exact ⟨file, rfl, hpath⟩
      · rintro ⟨file', hfile, hslash⟩
        cases hfile
        rw [hpath] at hslash
        cases hslash
        rfl

theorem resolveRoot_moduleTree {text m : String}
    (htext : Text.decodeUtf8? (Text.encodeUtf8 text) = some text) (hm : modulePath? text = some m) :
    (moduleTree text).resolveRoot [] (Path.absolute []) "" none =
      .ok ⟨ownerPrefix m, .module (FileTree.goModIn [])⟩ := by
  have hfile : FileTree.goModIn [] = ⟨.root, ["go.mod"]⟩ := by decide +kernel
  have hnearest : (moduleTree text).NearestModule [] [] := by
    refine FileTree.nearestModule_here ?_
    rw [hfile, FileTree.isFile, FileTree.find?, moduleTree_locate]
    rfl
  have hread : (moduleTree text).readModulePath [] (FileTree.goModIn []) = .ok (some m) := by
    rw [hfile, FileTree.readModulePath, if_neg (by decide), FileTree.read, moduleTree_locate]
    dsimp only
    rw [htext, ← hm]
  have hplace := moduleTree_resolve text
  have hentries : gopathEntries "" = [] := by decide +kernel
  rw [FileTree.resolveRoot_of_misses hplace (by simp [hentries])]
  exact FileTree.rootFromModule_of_nearest hplace hnearest hread _

theorem root_empty_iff_slash_module_tool :
    (moduleTree toolText).resolveRoot [] (Path.absolute []) "" none =
      .ok ⟨"example.org/me", .module (FileTree.goModIn [])⟩ ∧
    ¬ ∀ path : String, '.' ∈ path.toList → classify "example.org/me" path = .internal := by
  have hroot : (moduleTree toolText).resolveRoot [] (Path.absolute []) "" none =
      .ok ⟨ownerPrefix "example.org/me/tool/v2", .module (FileTree.goModIn [])⟩ :=
    resolveRoot_moduleTree (by decide +kernel) (by decide +kernel)
  have hname : ownerPrefix "example.org/me/tool/v2" = "example.org/me" := by decide +kernel
  rw [hname] at hroot
  refine ⟨hroot, fun hall => ?_⟩
  exact absurd ((root_empty_iff_slash_module _ _ _ _ _ _ hroot).2.mp hall) (by decide)

/-- A module that is called by a slash leaves no name, and then every path with a dot is internal. -/
theorem slash_module_without_name :
    (moduleTree "module /\n").resolveRoot [] (Path.absolute []) "" none =
      .ok ⟨"", .module (FileTree.goModIn [])⟩ ∧
    ∀ path : String, '.' ∈ path.toList → classify "" path = .internal := by
  have hroot : (moduleTree "module /\n").resolveRoot [] (Path.absolute []) "" none =
      .ok ⟨ownerPrefix "/", .module (FileTree.goModIn [])⟩ :=
    resolveRoot_moduleTree (by decide +kernel) (by decide +kernel)
  have hname : ownerPrefix "/" = "" := by decide +kernel
  exact ⟨hname ▸ hroot, classify_internal_iff.mpr rfl⟩

end ImportGroups
