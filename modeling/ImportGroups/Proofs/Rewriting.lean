import ImportGroups.ConfigFile
import ImportGroups.RootPackage
import Mathlib.Logic.Basic
import Mathlib.Tactic.ByContra
import Mathlib.Tactic.SplitIfs

/-!
Trees that differ in the contents of files only.

Access to a tree goes by its directories and links. A change of contents moves nothing, so every
lookup comes to the same place, and a file that is not changed reads as before.
-/

namespace ImportGroups

open Text (Bytes)

def Node.rewrite (f : List String → Bytes → Bytes) (place : List String) : Node → Node
  | .file content => .file (f place content)
  | .link target => .link target
  | .dir entries => .dir (go place entries)
where
  go (place : List String) : List (String × Node) → List (String × Node)
    | [] => []
    | (name, n) :: rest => (name, n.rewrite f (place ++ [name])) :: go place rest

variable {f : List String → Bytes → Bytes}

namespace Node

theorem lookup_rewrite (place : List String) (entries : List (String × Node)) (name : String) :
    (rewrite.go f place entries).lookup name =
      (entries.lookup name).map (rewrite f (place ++ [name])) := by
  induction entries with
  | nil => rfl
  | cons e rest ih =>
    obtain ⟨key, n⟩ := e
    by_cases h : name = key
    · subst h
      simp [rewrite.go]
    · have hb : (name == key) = false := by simpa using h
      simp [rewrite.go, List.lookup_cons, hb, ih]

theorem nodeAt_rewrite (n : Node) (place names : List String) :
    (n.rewrite f place).nodeAt names = (n.nodeAt names).map (rewrite f (place ++ names)) := by
  induction names generalizing n place with
  | nil => simp [nodeAt]
  | cons name names ih =>
    cases n with
    | file content => simp [rewrite, nodeAt]
    | link target => simp [rewrite, nodeAt]
    | dir entries =>
      simp only [rewrite, nodeAt, lookup_rewrite]
      cases entries.lookup name with
      | none => rfl
      | some m => simp [ih]

mutual

theorem linkCount_rewrite (n : Node) (place : List String) :
    (n.rewrite f place).linkCount = n.linkCount := by
  cases n with
  | file content => simp [rewrite, linkCount]
  | link target => simp [rewrite, linkCount]
  | dir entries => simp only [rewrite, linkCount, linkCount_rewrite_entries entries place]

theorem linkCount_rewrite_entries (entries : List (String × Node)) (place : List String) :
    linkCount.go (rewrite.go f place entries) = linkCount.go entries := by
  match entries with
  | [] => rfl
  | (name, n) :: rest =>
    simp only [rewrite.go, linkCount.go, linkCount_rewrite n (place ++ [name]),
      linkCount_rewrite_entries rest place]

end

theorem isFile_rewrite (n : Node) (place : List String) :
    (n.rewrite f place).isFile = n.isFile := by
  cases n <;> rfl

end Node

namespace FileTree

def rewrite (f : List String → Bytes → Bytes) (t : FileTree) : FileTree where
  entries := Node.rewrite.go f [] t.entries

def Touched (f : List String → Bytes → Bytes) (t : FileTree) (place : List String) : Prop :=
  ∃ content, t.nodeAt place = some (.file content) ∧ f place content ≠ content

theorem nodeAt_rewrite (t : FileTree) (place : List String) :
    (t.rewrite f).nodeAt place = (t.nodeAt place).map (Node.rewrite f place) := by
  have hroot : (t.rewrite f).root = t.root.rewrite f [] := by simp [root, rewrite, Node.rewrite]
  rw [nodeAt, hroot, Node.nodeAt_rewrite]
  rfl

theorem locateFrom_rewrite (t : FileTree) (links : Nat) (here rest : List String) :
    (t.rewrite f).locateFrom links here rest =
      (t.locateFrom links here rest).map fun x => (x.1, x.2.rewrite f x.1) := by
  fun_induction locateFrom t links here rest with
  | case1 links here n hn => simp [locateFrom, nodeAt_rewrite, hn, Except.map]
  | case2 links here hn => simp [locateFrom, nodeAt_rewrite, hn, Except.map]
  | case3 links here name rest hdot ih => rw [locateFrom, if_pos hdot, ih]
  | case4 links here name rest hdot hup ih => rw [locateFrom, if_neg hdot, if_pos hup, ih]
  | case5 links here name rest hdot hup hlong =>
    rw [locateFrom, if_neg hdot, if_neg hup, if_pos hlong]
    rfl
  | case6 links here name rest hdot hup hlong hn =>
    rw [locateFrom, if_neg hdot, if_neg hup, if_neg hlong]
    simp [nodeAt_rewrite, hn, Except.map]
  | case7 links here name rest hdot hup hlong entries hn ih =>
    rw [locateFrom, if_neg hdot, if_neg hup, if_neg hlong]
    simp only [nodeAt_rewrite, hn, Option.map_some, Node.rewrite]
    exact ih
  | case8 links here name rest hdot hup hlong content hn hrest =>
    rw [locateFrom, if_neg hdot, if_neg hup, if_neg hlong]
    simp [nodeAt_rewrite, hn, hrest, Node.rewrite, Except.map]
  | case9 links here name rest hdot hup hlong content hn hrest =>
    rw [locateFrom, if_neg hdot, if_neg hup, if_neg hlong]
    simp [nodeAt_rewrite, hn, hrest, Node.rewrite, Except.map]
  | case10 here name rest hdot hup hlong target hn =>
    rw [locateFrom, if_neg hdot, if_neg hup, if_neg hlong]
    simp [nodeAt_rewrite, hn, Node.rewrite, Except.map]
  | case11 here name rest hdot hup hlong target hn links ih =>
    rw [locateFrom, if_neg hdot, if_neg hup, if_neg hlong]
    simp only [nodeAt_rewrite, hn, Option.map_some, Node.rewrite]
    exact ih

theorem locate_rewrite (t : FileTree) (cwd : List String) (p : Path) :
    (t.rewrite f).locate cwd p =
      (t.locate cwd p).map fun x => (x.1, x.2.rewrite f x.1) := by
  unfold locate
  split_ifs
  · rfl
  · rfl
  · exact locateFrom_rewrite t _ _ _

theorem isFile_rewrite (t : FileTree) (cwd : List String) (p : Path) :
    (t.rewrite f).isFile cwd p = t.isFile cwd p := by
  unfold isFile find?
  rw [locate_rewrite]
  cases t.locate cwd p with
  | ok x => simp [Except.map, Node.isFile_rewrite]
  | error e => cases e <;> rfl

theorem nodeAt_of_locateFrom {t : FileTree} {links : Nat} {here rest place : List String} {n : Node}
    (h : t.locateFrom links here rest = .ok (place, n)) : t.nodeAt place = some n := by
  fun_induction locateFrom t links here rest with
  | case1 links here m hn =>
    cases h
    exact hn
  | case8 links here name rest hdot hup hlong content hn hrest =>
    cases h
    exact hn
  | case3 _ _ _ _ _ ih => exact ih h
  | case4 _ _ _ _ _ _ ih => exact ih h
  | case7 _ _ _ _ _ _ _ _ _ ih => exact ih h
  | case11 _ _ _ _ _ _ _ _ _ ih => exact ih h
  | case2 => cases h
  | case5 => cases h
  | case6 => cases h
  | case9 => cases h
  | case10 => cases h

theorem nodeAt_of_locate {t : FileTree} {cwd place : List String} {p : Path} {n : Node}
    (h : t.locate cwd p = .ok (place, n)) : t.nodeAt place = some n := by
  unfold locate at h
  split_ifs at h
  exact nodeAt_of_locateFrom h

theorem read_rewrite {t : FileTree} {cwd : List String} {p : Path}
    (h : ∀ place n, t.locate cwd p = .ok (place, n) → ¬ t.Touched f place) :
    (t.rewrite f).read cwd p = t.read cwd p := by
  unfold read
  rw [locate_rewrite]
  cases hl : t.locate cwd p with
  | error e => rfl
  | ok x =>
    obtain ⟨place, n⟩ := x
    cases n with
    | dir entries => rfl
    | link target => rfl
    | file content =>
      have hsame : f place content = content := by
        by_contra hne
        exact h place _ hl ⟨content, nodeAt_of_locate hl, hne⟩
      simp [Except.map, Node.rewrite, hsame]

theorem resolveFrom_rewrite (t : FileTree) (cwd : List String) (depth : Nat) (notes : LinkNotes)
    (here : Path) (rest : List String) :
    (t.rewrite f).resolveFrom cwd depth notes here rest =
      t.resolveFrom cwd depth notes here rest := by
  have hlink : ∀ place target, (t.rewrite f).nodeAt place = some (.link target) ↔
      t.nodeAt place = some (.link target) := by
    intro place target
    rw [nodeAt_rewrite]
    cases t.nodeAt place with
    | none => simp
    | some n => cases n <;> simp [Node.rewrite]
  fun_induction resolveFrom t cwd depth notes here rest with
  | case1 => rw [resolveFrom]
  | case2 _ _ _ _ _ hdot ih => rw [resolveFrom, if_pos hdot, ih]
  | case3 _ _ _ _ _ hdot hup ih => rw [resolveFrom, if_neg hdot, if_pos hup, ih]
  | case4 _ _ _ _ _ hdot hup hnul => rw [resolveFrom, if_neg hdot, if_neg hup, if_pos hnul]
  | case5 _ _ _ _ _ hdot hup hnul next target hn p hp ih =>
    rw [resolveFrom, if_neg hdot, if_neg hup, if_neg hnul]
    simp only [(hlink _ _).mpr hn, hp, next]
    exact ih
  | case6 _ _ _ _ _ hdot hup hnul next target hn hp =>
    rw [resolveFrom, if_neg hdot, if_neg hup, if_neg hnul]
    simp only [(hlink _ _).mpr hn, hp, next]
  | case7 _ _ _ _ hdot hup hnul next target hn hp =>
    rw [resolveFrom, if_neg hdot, if_neg hup, if_neg hnul]
    simp only [(hlink _ _).mpr hn, hp, next]
  | case8 _ _ _ _ hdot hup hnul next target hn hp inner start p notes hr ih1 ih2 =>
    rw [resolveFrom, if_neg hdot, if_neg hup, if_neg hnul]
    have htarget := ih1.trans hr
    simp only [next, start, dite_eq_ite] at htarget
    simp only [(hlink _ _).mpr hn, hp, next, htarget]
    exact ih2
  | case9 _ _ _ _ hdot hup hnul next target hn hp inner start p notes hr ih =>
    rw [resolveFrom, if_neg hdot, if_neg hup, if_neg hnul]
    have htarget := ih.trans hr
    simp only [next, start, dite_eq_ite] at htarget
    simp only [(hlink _ _).mpr hn, hp, next, htarget]
  | case10 _ _ _ _ hdot hup hnul next target hn hp inner start notes hr ih =>
    rw [resolveFrom, if_neg hdot, if_neg hup, if_neg hnul]
    have htarget := ih.trans hr
    simp only [next, start, dite_eq_ite] at htarget
    simp only [(hlink _ _).mpr hn, hp, next, htarget]
  | case11 _ _ _ _ _ hdot hup hnul next hn ih =>
    rw [resolveFrom, if_neg hdot, if_neg hup, if_neg hnul]
    cases hm : (t.rewrite f).nodeAt (placeOf cwd next) with
    | none =>
      simp only [next] at hm
      simp only [hm]
      exact ih
    | some n =>
      cases n with
      | link target => exact absurd ((hlink _ _).mp hm) (hn target)
      | file content =>
        simp only [next] at hm
        simp only [hm]
        exact ih
      | dir entries =>
        simp only [next] at hm
        simp only [hm]
        exact ih

theorem resolve_rewrite (t : FileTree) (cwd : List String) (p : Path) :
    (t.rewrite f).resolve cwd p = t.resolve cwd p := by
  have hdepth : (t.rewrite f).linkDepth cwd = t.linkDepth cwd := by
    have hroot : (t.rewrite f).root = t.root.rewrite f [] := by simp [root, rewrite, Node.rewrite]
    rw [linkDepth, hroot, Node.linkCount_rewrite]
    rfl
  simp only [resolve, hdepth, resolveFrom_rewrite, locate_rewrite]
  generalize (t.resolveFrom cwd _ [] _ p.parts).1 = reached
  cases reached with
  | unnameable => rfl
  | reached q =>
    dsimp only
    cases t.locate [] (.absolute (placeOf cwd q)) with
    | ok x => rfl
    | error e => cases e <;> rfl
  | looping q =>
    dsimp only
    cases t.locate [] (.absolute (placeOf cwd q)) with
    | ok x => rfl
    | error e => cases e <;> rfl

theorem rootFromGopath_rewrite (t : FileTree) (cwd : List String) (dir : Path) (gopath : String) :
    (t.rewrite f).rootFromGopath cwd dir gopath = t.rootFromGopath cwd dir gopath := by
  have hgo : ∀ place entries, rootFromGopath.go (t.rewrite f) cwd place entries =
      rootFromGopath.go t cwd place entries := by
    intro place entries
    induction entries with
    | nil => rfl
    | cons entry rest ih => simp only [rootFromGopath.go, resolve_rewrite, ih]
  unfold rootFromGopath
  simp only [resolve_rewrite, hgo]

theorem findGoMod_rewrite (t : FileTree) (cwd : List String) (dir : Path) :
    (t.rewrite f).findGoMod cwd dir = t.findGoMod cwd dir := by
  have hcandidate : ∀ insideOut, goModAbove?.candidate (t.rewrite f) insideOut =
      goModAbove?.candidate t insideOut := by
    intro insideOut
    simp only [goModAbove?.candidate, isFile_rewrite]
  have habove : ∀ insideOut, (t.rewrite f).goModAbove? insideOut = t.goModAbove? insideOut := by
    intro insideOut
    induction insideOut with
    | nil => simp only [goModAbove?, hcandidate]
    | cons name above ih => simp only [goModAbove?, hcandidate, ih]
  simp only [findGoMod, resolve_rewrite, habove]

theorem configPath?_rewrite (t : FileTree) (cwd : List String) (explicit : Option Path) :
    (t.rewrite f).configPath? cwd explicit = t.configPath? cwd explicit := by
  cases explicit with
  | none => simp only [configPath?, isFile_rewrite]
  | some p => simp only [configPath?, isFile_rewrite]

end FileTree

end ImportGroups
