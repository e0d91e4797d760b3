import Mathlib.Data.List.Chain
import Mathlib.Tactic.SplitIfs
import ImportGroups.Category
import ImportGroups.Proofs.Split
import ImportGroups.RootPackage

/-!
The packages of a project against its own root package.

The root package is cut off the path of the project: off the place of the working directory below
the sources of a GOPATH entry, or off the module path of `go.mod`. Joined again, the leading
segments are the beginning of that path, letter by letter, so no package of the project is taken
for one of a third party.
-/

namespace ImportGroups

namespace Text

def SingleSlashes (cs : List Char) : Prop := cs.IsChain fun a b => ¬ (a = '/' ∧ b = '/')

theorem SingleSlashes.of_isInfix {cs ds : List Char} (h : SingleSlashes ds) (hi : cs <:+: ds) :
    SingleSlashes cs := by
  obtain ⟨before, after, rfl⟩ := hi
  exact (List.isChain_append.mp (List.isChain_append.mp h).1).2.1

theorem SingleSlashes.filter_tail_isPrefix {cs p : List Char} {ps : List (List Char)}
    (h : SingleSlashes cs) (hs : splitAt '/' cs = p :: ps) :
    ps.filter (· != []) <+: ps := by
  induction cs generalizing p ps with
  | nil =>
    cases hs
    exact List.nil_prefix
  | cons d ds ih =>
    obtain ⟨q, qs, hq⟩ := List.exists_cons_of_ne_nil (splitAt_ne_nil '/' ds)
    have hqs := ih (List.IsChain.tail h) hq
    by_cases hd : d = '/'
    · obtain ⟨rfl, rfl⟩ : [] = p ∧ q :: qs = ps := by simpa [splitAt, hd, hq] using hs
      cases ds with
      | nil =>
        cases hq
        exact List.nil_prefix
      | cons e es =>
        have he : e ≠ '/' := fun he => (List.isChain_cons_cons.mp h).1 ⟨hd, he⟩
        obtain ⟨r, rfl⟩ : ∃ r, q = e :: r := by
          obtain ⟨r, rs, hr⟩ := List.exists_cons_of_ne_nil (splitAt_ne_nil '/' es)
          exact ⟨r, by simpa [splitAt, he, hr] using (congrArg (·.head?) hq).symm⟩
        simpa using hqs
    · obtain ⟨-, rfl⟩ : d :: q = p ∧ qs = ps := by simpa [splitAt, hd, hq] using hs
      exact hqs

theorem map_toList_segments (c : Char) (s : String) :
    (segments c s).map String.toList = (splitAt c s.toList).filter (· != []) := by
  simp only [segments, split, List.filter_map, List.map_map]
  have hne : ((· != "") ∘ String.ofList) = fun cs : List Char => cs != [] := by
    funext cs
    cases cs <;> simp [bne, ← String.toList_inj]
  rw [hne]
  simp [Function.comp_def]

/-- Of a path with single slashes, none at its beginning, the leading segments joined again are the
beginning. -/
theorem intercalate_segments_isPrefix {s : String} (n : Nat) (h : SingleSlashes s.toList)
    (hhead : s.toList.head? ≠ some '/') :
    ("/".intercalate ((segments '/' s).take n)).toList <+: s.toList := by
  obtain ⟨p, ps, hp⟩ := List.exists_cons_of_ne_nil (splitAt_ne_nil '/' s.toList)
  have hpieces : (splitAt '/' s.toList).filter (· != []) <+: splitAt '/' s.toList := by
    rw [hp]
    have hps := h.filter_tail_isPrefix hp
    cases p with
    | cons d ds => simpa using hps
    | nil =>
      cases hs : s.toList with
      | nil =>
        obtain rfl : ps = [] := by simpa [hs, splitAt] using hp
        exact List.nil_prefix
      | cons d ds =>
        have hd : d ≠ '/' := by simpa [hs] using hhead
        obtain ⟨q, qs, hq⟩ := List.exists_cons_of_ne_nil (splitAt_ne_nil '/' ds)
        simp [hs, splitAt, hd, hq] at hp
  have htake := (List.take_prefix n _).trans hpieces
  have hjoined := intercalate_isPrefix ['/'] htake
  rw [intercalate_splitAt] at hjoined
  rwa [String.toList_intercalate, List.map_take, map_toList_segments]

theorem trimWhile_isInfix {α : Type} (p : α → Bool) (xs : List α) : trimWhile p xs <:+: xs := by
  have hfront : xs.dropWhile p <:+ xs := List.dropWhile_suffix p
  have hback : trimWhile p xs <+: xs.dropWhile p := by
    rw [trimWhile, dropEndWhile, ← List.reverse_suffix, List.reverse_reverse]
    exact List.dropWhile_suffix p
  exact hback.isInfix.trans hfront.isInfix

end Text

open Text (SingleSlashes)

theorem singleSlashes_beforeComment (line : List Char) :
    SingleSlashes (modulePathOfLine?.beforeComment line) := by
  have hhead : ∀ cs : List Char, ∀ c ∈ (modulePathOfLine?.beforeComment cs).head?,
      cs.head? = some c := by
    intro cs
    fun_cases modulePathOfLine?.beforeComment cs <;> simp
  fun_induction modulePathOfLine?.beforeComment line with
  | case1 => exact List.IsChain.nil
  | case2 => exact List.IsChain.nil
  | case3 c cs hnot ih =>
    refine List.isChain_cons.mpr ⟨?_, ih⟩
    rintro d hd ⟨rfl, rfl⟩
    obtain ⟨rest, rfl⟩ := List.head?_eq_some_iff.mp (hhead cs _ hd)
    exact hnot rest rfl rfl

theorem singleSlashes_modulePathOfLine? {line : List Char} {path : String}
    (h : modulePathOfLine? line = some (some path)) : SingleSlashes path.toList := by
  simp only [modulePathOfLine?, Option.ite_none_right_eq_some, Option.some.injEq,
    Option.ite_none_left_eq_some] at h
  obtain ⟨-, -, rfl⟩ := h
  rw [String.toList_ofList]
  apply (singleSlashes_beforeComment line).of_isInfix
  refine (Text.trimWhile_isInfix _ _).trans ((Text.trimWhile_isInfix _ _).trans ?_)
  refine (Text.trimWhile_isInfix _ _).trans ((List.drop_suffix _ _).isInfix.trans ?_)
  exact Text.trimWhile_isInfix _ _

theorem singleSlashes_modulePath? {text path : String} (h : modulePath? text = some path) :
    SingleSlashes path.toList := by
  obtain ⟨line, -, hline⟩ := List.exists_of_findSome?_eq_some (Option.join_eq_some_iff.mp h)
  exact singleSlashes_modulePathOfLine? hline

theorem below?_eq_some_iff {top place parts : List String} :
    below? top place = some parts ↔ place = top ++ parts := by
  fun_induction below? top place with
  | case1 place => simp
  | case2 t top p place heq ih => simp [ih, eq_of_beq heq]
  | case3 t top p place hne =>
    have htp : p ≠ t := fun h => hne (by simp [h])
    simp [htp]
  | case4 => simp

namespace FileTree

def DecidingEntry (t : FileTree) (cwd : List String) (entries : List String)
    (place : List String) (entry : String) (parts : List String) : Prop :=
  (∃ before after, entries = before ++ entry :: after ∧
    ∀ e ∈ before, ∃ top, t.resolve cwd (Path.ofString e) = .ok top ∧
      ∀ parts, place ≠ top ++ ["src"] ++ parts) ∧
  ∃ top, t.resolve cwd (Path.ofString entry) = .ok top ∧ place = top ++ ["src"] ++ parts

theorem rootFromGopath_go {t : FileTree} {cwd place : List String} {entries : List String}
    {name : String} (h : rootFromGopath.go t cwd place entries = .ok name) :
    ∃ entry parts, t.DecidingEntry cwd entries place entry parts ∧
      name = "/".intercalate (parts.take rootDepth) := by
  induction entries with
  | nil => simp [rootFromGopath.go] at h
  | cons entry rest ih =>
    unfold rootFromGopath.go at h
    cases hr : t.resolve cwd (Path.ofString entry) with
    | error f => simp [hr] at h
    | ok top =>
      cases hb : below? (top ++ ["src"]) place with
      | none =>
        simp only [hr, hb] at h
        obtain ⟨e, parts, ⟨⟨before, after, rfl, hbefore⟩, hbelow⟩, hname⟩ := ih h
        refine ⟨e, parts, ⟨⟨entry :: before, after, rfl, ?_⟩, hbelow⟩, hname⟩
        rw [List.forall_mem_cons]
        refine ⟨⟨top, hr, fun parts hp => ?_⟩, hbefore⟩
        simp [below?_eq_some_iff.mpr hp] at hb
      | some parts =>
        simp only [hr, hb] at h
        split_ifs at h with hshallow
        exact ⟨entry, parts, ⟨⟨[], rest, rfl, by simp⟩, ⟨top, hr, below?_eq_some_iff.mp hb⟩⟩,
          by simpa using h.symm⟩

theorem rootFromGopath_ok {t : FileTree} {cwd : List String} {dir : Path} {gopath name : String}
    (h : t.rootFromGopath cwd dir gopath = .ok name) :
    ∃ place entry parts, t.resolve cwd dir = .ok place ∧
      t.DecidingEntry cwd (gopathEntries gopath) place entry parts ∧
      name = "/".intercalate (parts.take rootDepth) := by
  unfold rootFromGopath at h
  split at h
  · simp at h
  · cases hr : t.resolve cwd dir with
    | error f => simp [hr] at h
    | ok place =>
      simp only [hr] at h
      obtain ⟨entry, parts, hentry, hname⟩ := rootFromGopath_go h
      exact ⟨place, entry, parts, rfl, hentry, hname⟩

theorem rootFromModule_ok {t : FileTree} {cwd : List String} {dir : Path} {e : RootError}
    {r : RootPackage} (h : t.rootFromModule cwd dir e = .ok r) :
    ∃ file path, t.findGoMod cwd dir = .ok (some file) ∧
      t.readModulePath cwd file = .ok (some path) ∧ r = ⟨ownerPrefix path, .module file⟩ := by
  unfold rootFromModule at h
  split at h
  · simp at h
  · simp at h
  · rename_i file hfile
    split at h <;> try simp at h
    rename_i path hpath
    exact ⟨file, path, hfile, hpath, by simpa using h.symm⟩

theorem singleSlashes_readModulePath {t : FileTree} {cwd : List String} {file : Path}
    {path : String} (h : t.readModulePath cwd file = .ok (some path)) :
    SingleSlashes path.toList := by
  unfold readModulePath at h
  split_ifs at h
  split at h
  · simp at h
  · split at h
    · simp at h
    · exact singleSlashes_modulePath? (by simpa using h)

end FileTree

def IsWithin (m path : String) : Prop := path = m ∨ ∃ x, path = m ++ "/" ++ x

theorem IsWithin.isPrefix {m path : String} (h : IsWithin m path) : m.toList <+: path.toList := by
  rcases h with rfl | ⟨x, rfl⟩
  · exact List.prefix_rfl
  · simp [String.toList_append, List.append_assoc]

/-- Whatever lies within `m` is internal or, without a dot, of the standard library. -/
def Owns (root m : String) : Prop :=
  ∀ path, IsWithin m path →
    classify root path = (if '.' ∈ path.toList then .internal else .stdlib) ∧
      classify root path ≠ .external

theorem owns_of_isPrefix {root m : String} (h : root.toList <+: m.toList) : Owns root m := by
  intro path hpath
  have hroot : root.toList.isPrefixOf path.toList = true :=
    List.isPrefixOf_iff_prefix.mpr (h.trans hpath.isPrefix)
  by_cases hdot : '.' ∈ path.toList <;> simp [classify, hroot, hdot]

/-- The root package that was not asked for owns the project: what lies within the place of the
working directory below the deciding GOPATH entry, or within the path of its module. -/
theorem root_owns_project (t : FileTree) (cwd : List String) (dir : Path) (gopath : String)
    (r : RootPackage) (h : t.resolveRoot cwd dir gopath none = .ok r) :
    (r.origin = .gopath ∧ ∃ place entry parts, t.resolve cwd dir = .ok place ∧
      t.DecidingEntry cwd (gopathEntries gopath) place entry parts ∧
      r.name = "/".intercalate (parts.take rootDepth) ∧ Owns r.name ("/".intercalate parts)) ∨
    ∃ file path, r.origin = .module file ∧ t.findGoMod cwd dir = .ok (some file) ∧
      t.readModulePath cwd file = .ok (some path) ∧ r.name = ownerPrefix path ∧
      (path.toList.head? ≠ some '/' → Owns r.name path) := by
  unfold FileTree.resolveRoot at h
  cases hg : t.rootFromGopath cwd dir gopath with
  | ok name =>
    obtain ⟨place, entry, parts, hplace, hentry, rfl⟩ := FileTree.rootFromGopath_ok hg
    obtain rfl : _ = r := by simpa [hg] using h
    refine .inl ⟨rfl, place, entry, parts, hplace, hentry, rfl, owns_of_isPrefix ?_⟩
    simp only [String.toList_intercalate, List.map_take]
    exact intercalate_isPrefix _ (List.take_prefix _ _)
  | error a =>
    have hmodule : ∃ e, t.rootFromModule cwd dir e = .ok r := by
      rcases a with (_ | _ | _ | _) | f <;> simp [hg] at h <;> exact ⟨_, h⟩
    obtain ⟨e, he⟩ := hmodule
    obtain ⟨file, path, hfile, hpath, rfl⟩ := FileTree.rootFromModule_ok he
    refine .inr ⟨file, path, rfl, hfile, hpath, rfl, fun hhead => owns_of_isPrefix ?_⟩
    exact Text.intercalate_segments_isPrefix _ (FileTree.singleSlashes_readModulePath hpath) hhead

def moduleTree (text : String) : FileTree where
  entries := [("go.mod", .file (Text.encodeUtf8 text))]

theorem moduleTree_locate (text : String) :
    (moduleTree text).locate [] ⟨.root, ["go.mod"]⟩ =
      .ok (["go.mod"], .file (Text.encodeUtf8 text)) := by
  rw [FileTree.locate, if_neg (by decide), if_neg (by decide), FileTree.locateFrom,
    if_neg (by decide), if_neg (by decide), if_neg (by decide)]
  rfl

theorem moduleTree_resolve (text : String) :
    (moduleTree text).resolve [] (Path.absolute []) = .ok [] := by
  have hlocate : (moduleTree text).locate [] ⟨.root, []⟩ = .ok ([], (moduleTree text).root) := by
    rw [FileTree.locate, if_neg (by decide), if_neg (by decide), FileTree.locateFrom.eq_def]
    rfl
  simp [FileTree.resolve, FileTree.resolveFrom, FileTree.placeOf, FileTree.startOf, Path.absolute,
    Path.isAbsolute, Path.hasNul, hlocate]

def toolText : String := "// a tool\nmodule example.org/me/tool/v2 // second\n"

def toolTree : FileTree where
  entries := [("go.mod", .file (Text.encodeUtf8 toolText))]

theorem toolTree_locate :
    toolTree.locate [] ⟨.root, ["go.mod"]⟩ = .ok (["go.mod"], .file (Text.encodeUtf8 toolText)) :=
  moduleTree_locate toolText

theorem toolTree_resolve : toolTree.resolve [] (Path.absolute []) = .ok [] :=
  moduleTree_resolve toolText

/-- The packages of a module in its second version. -/
theorem root_owns_project_module :
    toolTree.resolveRoot [] (Path.absolute []) "" none =
      .ok ⟨"example.org/me", .module ⟨.root, ["go.mod"]⟩⟩ ∧
    Owns "example.org/me" "example.org/me/tool/v2" := by
  have hfile : toolTree.findGoMod [] (Path.absolute []) = .ok (some ⟨.root, ["go.mod"]⟩) := by
    have hchild : (Path.absolute []).child goModName = ⟨.root, ["go.mod"]⟩ := by decide
    simp [FileTree.findGoMod, toolTree_resolve, FileTree.goModAbove?,
      FileTree.goModAbove?.candidate, hchild, FileTree.isFile, FileTree.find?, toolTree_locate,
      Except.map, Node.isFile, bind, Except.bind, pure, Except.pure]
  have hread : toolTree.readModulePath [] ⟨.root, ["go.mod"]⟩ =
      .ok (some "example.org/me/tool/v2") := by
    have htext : Text.decodeUtf8? (Text.encodeUtf8 toolText) = some toolText := by decide +kernel
    have hpath : modulePath? toolText = some "example.org/me/tool/v2" := by decide +kernel
    rw [FileTree.readModulePath, if_neg (by decide)]
    simp only [FileTree.read, toolTree_locate, htext, hpath]
  have hroot : toolTree.resolveRoot [] (Path.absolute []) "" none =
      .ok ⟨"example.org/me", .module ⟨.root, ["go.mod"]⟩⟩ := by
    have howner : ownerPrefix "example.org/me/tool/v2" = "example.org/me" := by decide +kernel
    have hgopath : toolTree.rootFromGopath [] (Path.absolute []) "" =
        .error (.refused .noGopath) := rfl
    simp only [FileTree.resolveRoot, hgopath, FileTree.rootFromModule, hfile, hread, howner]
  refine ⟨hroot, ?_⟩
  rcases root_owns_project _ _ _ _ _ hroot with ⟨horigin, -⟩ | ⟨file, path, horigin, -, hpath, -, howns⟩
  · cases horigin
  · cases horigin
    rw [hread] at hpath
    cases hpath
    exact howns (by decide)

end ImportGroups
