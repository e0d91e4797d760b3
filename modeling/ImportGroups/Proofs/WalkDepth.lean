import ImportGroups.Check
import ImportGroups.Proofs.Outcome
import ImportGroups.Proofs.SortedTree

/-!
How far down a walk goes.

From a directory that can be opened a walk goes down into every entry that is a directory and is not
left out. The steps from a start path are those of its walk, unless a chain of such directories is
longer than a run can follow.
-/

namespace ImportGroups

namespace FileTree

/-- From the node `n` at the place `w` a walk goes down through `k` directories, one in the other. -/
inductive Descends (t : FileTree) (rules : WalkRules) : WalkPlace → Node → Nat → Prop where
  | stays (w : WalkPlace) (n : Node) : Descends t rules w n 0
  | down {w : WalkPlace} {entries : List (String × Node)} {name : String} {n : Node} {k : Nat}
      (hopens : w.opens = true) (hmem : (name, n) ∈ entries)
      (hleads : t.leadsToDir w.here (name, n) = true) (hkept : w.leavesOut rules name = false)
      (h : Descends t rules (w.enter name) n k) : Descends t rules w (.dir entries) (k + 1)

variable {t : FileTree} {rules : WalkRules} {w : WalkPlace} {cwd : List String} {config : Config}
  {start : Path} {f : Fault} {ss : List Step}

theorem lt_subDepth_iff {k : Nat} {entries : List (String × Node)} :
    k < t.subDepth rules w entries ↔
      ∃ name n, (name, n) ∈ entries ∧ t.leadsToDir w.here (name, n) = true ∧
        w.leavesOut rules name = false ∧ k ≤ t.depth rules (w.enter name) n := by
  induction entries with
  | nil => simp [subDepth]
  | cons e rest ih =>
    obtain ⟨name, n⟩ := e
    have hfirst : k < (if t.leadsToDir w.here (name, n) && !w.leavesOut rules name
        then t.depth rules (w.enter name) n + 1 else 0) ↔
        t.leadsToDir w.here (name, n) = true ∧ w.leavesOut rules name = false ∧
          k ≤ t.depth rules (w.enter name) n := by
      by_cases hin : t.leadsToDir w.here (name, n) = true ∧ w.leavesOut rules name = false
      · rw [if_pos (by simp [hin]), Nat.lt_succ_iff]
        simp only [hin, true_and]
      · rw [if_neg (by simpa using hin)]
        constructor
        · intro h
          exact absurd h (Nat.not_lt_zero k)
        · rintro ⟨hleads, hkept, -⟩
          exact absurd ⟨hleads, hkept⟩ hin
    rw [subDepth, lt_max_iff, hfirst, ih]
    constructor
    · rintro (hin | ⟨d, m, hmem, hin⟩)
      · exact ⟨name, n, List.mem_cons_self, hin⟩
      · exact ⟨d, m, List.mem_cons_of_mem _ hmem, hin⟩
    · rintro ⟨d, m, hmem, hin⟩
      rcases List.mem_cons.mp hmem with heq | hmem
      · cases heq
        exact .inl hin
      · exact .inr ⟨d, m, hmem, hin⟩

/-- The depth of a walk is the length of its longest chain of directories. -/
theorem le_depth_iff (n : Node) (w : WalkPlace) (k : Nat) :
    k ≤ t.depth rules w n ↔ t.Descends rules w n k := by
  induction n using Node.entriesInduction generalizing w k with
  | file content =>
    constructor
    · intro h
      obtain rfl : k = 0 := Nat.le_zero.mp h
      exact .stays w _
    · rintro ⟨⟩
      exact Nat.le_refl 0
  | link target =>
    constructor
    · intro h
      obtain rfl : k = 0 := Nat.le_zero.mp h
      exact .stays w _
    · rintro ⟨⟩
      exact Nat.le_refl 0
  | dir entries ih =>
    cases k with
    | zero => exact iff_of_true (Nat.zero_le _) (.stays w _)
    | succ k =>
      rw [depth, Nat.succ_le_iff]
      constructor
      · intro h
        split_ifs at h with hopens
        · obtain ⟨name, n, hmem, hleads, hkept, hk⟩ := lt_subDepth_iff.mp h
          exact .down hopens hmem hleads hkept ((ih _ hmem _ _).mp hk)
        · omega
      · rintro (_ | ⟨hopens, hmem, hleads, hkept, h⟩)
        rw [if_pos hopens]
        exact lt_subDepth_iff.mpr ⟨_, _, hmem, hleads, hkept, (ih _ hmem _ _).mpr h⟩

theorem isTooDeep_iff :
    t.isTooDeep cwd config start = true ↔
      ∃ rules here n, t.walkRules cwd config start = .ok rules ∧
        t.locate cwd start = .ok (here, n) ∧
        t.Descends rules (.top here start) n (maxDepth + 1) := by
  unfold isTooDeep
  cases t.walkRules cwd config start with
  | error f => simp
  | ok rules =>
    cases t.locate cwd start with
    | error e => simp
    | ok x =>
      obtain ⟨here, n⟩ := x
      rw [decide_eq_true_eq, ← Nat.succ_le_iff, le_depth_iff]
      simp

theorem stepsFrom_ok (h : t.stepsFrom cwd config start = .ok ss) :
    (t.pathExists cwd start = .ok false ∧ ss = [.missing start]) ∨
    (t.pathExists cwd start = .ok true ∧
      ∃ vs, t.visitsUnder cwd config start = .ok vs ∧ ss = vs.map .visit) := by
  obtain ⟨found, hfound, h⟩ := bind_eq_ok_iff.mp h
  cases found with
  | false =>
    cases h
    exact .inl ⟨hfound, rfl⟩
  | true =>
    obtain ⟨vs, hvs, h⟩ := bind_eq_ok_iff.mp h
    rcases ite_eq_ok_cases h with ⟨-, h⟩ | ⟨-, h⟩
    · cases h
    · cases h
      exact .inr ⟨hfound, vs, hvs, rfl⟩

theorem stepsFrom_error_cases (h : t.stepsFrom cwd config start = .error f) :
    t.pathExists cwd start = .error f ∨
    (t.pathExists cwd start = .ok true ∧ t.visitsUnder cwd config start = .error f) ∨
    (t.isTooDeep cwd config start = true ∧ f = .tooDeep) := by
  rcases bind_eq_error_cases h with hfound | ⟨found, hfound, h⟩
  · exact .inl hfound
  cases found with
  | false => cases h
  | true =>
    rcases bind_eq_error_cases h with hvisits | ⟨vs, -, h⟩
    · exact .inr (.inl ⟨hfound, hvisits⟩)
    · split_ifs at h with hdeep
      cases h
      exact .inr (.inr ⟨hdeep, rfl⟩)

end FileTree

end ImportGroups
