import ImportGroups.Grouping
import Mathlib.Data.List.SplitBy

/-!
Groups as a partition by gaps.

The groups of a file are not empty, join up to its records, hold no wide gap inside and are a wide
gap apart. From this alone follows when the groups agree with a given classification of records:
when two records are classified alike exactly if no wide gap stands between them.
-/

namespace ImportGroups

/-- The gap before the record at position `k` is too wide for one group. -/
def WideGap (rs : List Record) (k : Nat) : Prop :=
  ∃ h : k < rs.length, 0 < k ∧ groupGap < rs[k].start - rs[k - 1].stop

theorem wideGap_succ_iff {rs : List Record} {i : Nat} {a b : Record} (ha : rs[i]? = some a)
    (hb : rs[i + 1]? = some b) : WideGap rs (i + 1) ↔ groupGap < b.start - a.stop := by
  obtain ⟨_, rfl⟩ := List.getElem?_eq_some_iff.mp ha
  obtain ⟨h, rfl⟩ := List.getElem?_eq_some_iff.mp hb
  simp [WideGap, h]

/-- No wide gap stands between the records at positions `i` and `j`. -/
def SameRun (rs : List Record) (i j : Nat) : Prop := ∀ k, i < k → k ≤ j → ¬ WideGap rs k

def Group.Apart (a b : Group) : Prop :=
  ∃ (ha : a ≠ []) (hb : b ≠ []), ¬ Adjacent (a.getLast ha) (b.head hb)

structure GapPartition (gs : List Group) : Prop where
  nonempty : ∀ g ∈ gs, g ≠ []
  tight : ∀ g ∈ gs, g.IsChain Adjacent
  apart : gs.IsChain Group.Apart

theorem groups_flatten (rs : List Record) : (groups rs).flatten = rs :=
  List.flatten_splitBy _ rs

theorem groups_gapPartition (rs : List Record) : GapPartition (groups rs) where
  nonempty _ hg := List.ne_nil_of_mem_splitBy hg
  tight g hg := by
    have hc := List.isChain_of_mem_splitBy hg
    exact hc.imp fun _ _ h => by simpa using h
  apart := by
    refine (List.isChain_getLast_head_splitBy _ rs).imp ?_
    rintro a b ⟨ha, hb, h⟩
    exact ⟨ha, hb, by simpa using h⟩

namespace GapPartition

theorem tail {g : Group} {gs : List Group} (h : GapPartition (g :: gs)) : GapPartition gs where
  nonempty a ha := h.nonempty a (List.mem_cons_of_mem g ha)
  tight a ha := h.tight a (List.mem_cons_of_mem g ha)
  apart := h.apart.tail

theorem ne_nil {g : Group} {gs : List Group} (h : GapPartition (g :: gs)) : g ≠ [] :=
  h.nonempty g List.mem_cons_self

theorem head_apart {g : Group} {gs : List Group} (h : GapPartition (g :: gs))
    (hr : gs.flatten ≠ []) : ¬ Adjacent (g.getLast h.ne_nil) (gs.flatten.head hr) := by
  cases gs with
  | nil => simp at hr
  | cons b gs =>
    obtain ⟨ha, hb, hab⟩ := (List.isChain_cons_cons.mp h.apart).1
    simpa [List.head_append, hb] using hab

end GapPartition

theorem wideGap_append_left {g rest : List Record} {k : Nat} (hk : k < g.length) :
    WideGap (g ++ rest) k ↔ WideGap g k := by
  have hk' : k - 1 < g.length := by omega
  simp [WideGap, List.getElem_append_left hk, List.getElem_append_left hk', hk]
  omega

theorem wideGap_append_right {g rest : List Record} {m : Nat} (hm : 0 < m) :
    WideGap (g ++ rest) (g.length + m) ↔ WideGap rest m := by
  have hs : g.length + m - 1 = g.length + (m - 1) := by omega
  constructor
  · rintro ⟨hl, _, hw⟩
    have hl' : m < rest.length := by simpa using hl
    refine ⟨hl', hm, ?_⟩
    simpa [hs] using hw
  · rintro ⟨hl, _, hw⟩
    refine ⟨by simpa using hl, by omega, ?_⟩
    simpa [hs] using hw

theorem wideGap_boundary {g rest : List Record} (hg : g ≠ []) (hr : rest ≠ []) :
    WideGap (g ++ rest) g.length ↔ ¬ Adjacent (g.getLast hg) (rest.head hr) := by
  have hpos : 0 < g.length := List.length_pos_iff.mpr hg
  have hrest : 0 < rest.length := List.length_pos_iff.mpr hr
  have hlast : (g ++ rest)[g.length - 1]? = some (g.getLast hg) := by
    rw [List.getElem?_append_left (by omega), List.getLast_eq_getElem, List.getElem?_eq_getElem]
  have hlast' := (List.getElem?_eq_some_iff.mp hlast).2
  rw [Adjacent, Int.not_le]
  simp [WideGap, hpos, hrest, hlast', List.head_eq_getElem]

theorem not_wideGap_of_isChain {g : List Record} (h : g.IsChain Adjacent) (k : Nat) :
    ¬ WideGap g k := by
  rintro ⟨hk, hpos, hw⟩
  have ha := List.isChain_iff_getElem.mp h (k - 1) (by omega)
  simp only [Adjacent, Nat.sub_add_cancel hpos] at ha
  omega

section Agreement

variable {κ : Type*} {f : Record → κ}

theorem lt_length {rs : List Record} {i j : Nat} (hij : i < j) (hj : j < rs.length) :
    i < rs.length :=
  hij.trans hj

/-- Two records are classified alike exactly if they stand in one run. -/
def AgreesWith (f : Record → κ) (rs : List Record) : Prop :=
  ∀ i j (hij : i < j) (hj : j < rs.length),
    f (getElem rs i (lt_length hij hj)) = f rs[j] ↔ SameRun rs i j

def Uniform (f : Record → κ) (g : Group) : Prop := ∀ r ∈ g, ∀ s ∈ g, f r = f s

def Distinct (f : Record → κ) (a b : Group) : Prop := ∀ r ∈ a, ∀ s ∈ b, f r ≠ f s

theorem sameRun_append_left {g rest : List Record} (hg : g.IsChain Adjacent) {i j : Nat}
    (hj : j < g.length) : SameRun (g ++ rest) i j := by
  intro k _ hk
  rw [wideGap_append_left (by omega)]
  exact not_wideGap_of_isChain hg k

theorem sameRun_append_right {g rest : List Record} {i j : Nat} :
    SameRun (g ++ rest) (g.length + i) (g.length + j) ↔ SameRun rest i j := by
  constructor
  · intro h k hik hkj
    rw [← wideGap_append_right (g := g) (by omega)]
    exact h _ (by omega) (by omega)
  · intro h k hik hkj
    obtain ⟨m, rfl⟩ : ∃ m, k = g.length + m := ⟨k - g.length, by omega⟩
    rw [wideGap_append_right (by omega)]
    exact h m (by omega) (by omega)

/-- The classification agrees with a first group and what follows it a wide gap later. -/
theorem agreesWith_append {g rest : List Record} (hg : g ≠ []) (hc : g.IsChain Adjacent)
    (hb : ∀ hr : rest ≠ [], ¬ Adjacent (g.getLast hg) (rest.head hr)) :
    AgreesWith f (g ++ rest) ↔ Uniform f g ∧ Distinct f g rest ∧ AgreesWith f rest := by
  constructor
  · intro h
    refine ⟨?_, ?_, ?_⟩
    · have key : ∀ i j (hij : i < j) (hj : j < g.length), f g[i] = f g[j] := by
        intro i j hij hj
        have := (h i j hij (by simp; omega)).mpr (sameRun_append_left hc hj)
        simpa [List.getElem_append_left, hj, show i < g.length by omega] using this
      intro r hr s hs
      obtain ⟨i, hi, rfl⟩ := List.mem_iff_getElem.mp hr
      obtain ⟨j, hj, rfl⟩ := List.mem_iff_getElem.mp hs
      rcases lt_trichotomy i j with hij | rfl | hij
      · exact key i j hij hj
      · rfl
      · exact (key j i hij hi).symm
    · intro r hr s hs heq
      obtain ⟨i, hi, rfl⟩ := List.mem_iff_getElem.mp hr
      obtain ⟨j, hj, rfl⟩ := List.mem_iff_getElem.mp hs
      have hrest : rest ≠ [] := List.ne_nil_of_length_pos (by omega)
      have hrun := (h i (g.length + j) (by omega) (by simpa using hj)).mp (by
        simpa [List.getElem_append_left, hi] using heq)
      -- the boundary itself is the wide gap between the two
      exact hrun g.length hi (by omega) ((wideGap_boundary hg hrest).mpr (hb hrest))
    · intro i j hij hj
      have := h (g.length + i) (g.length + j) (by omega) (by simpa using hj)
      rw [sameRun_append_right] at this
      simpa using this
  · rintro ⟨hu, hd, ha⟩ i j hij hj
    simp only [List.length_append] at hj
    rcases Nat.lt_or_ge j g.length with hjg | hjg
    · have hig : i < g.length := by omega
      rw [List.getElem_append_left hig, List.getElem_append_left hjg]
      exact iff_of_true (hu _ (List.getElem_mem _) _ (List.getElem_mem _))
        (sameRun_append_left hc hjg)
    · obtain ⟨m, rfl⟩ : ∃ m, j = g.length + m := ⟨j - g.length, by omega⟩
      have hm : m < rest.length := by omega
      have hrest : rest ≠ [] := List.ne_nil_of_length_pos (by omega)
      rcases Nat.lt_or_ge i g.length with hig | hig
      · rw [List.getElem_append_left hig, List.getElem_append_right (by omega)]
        refine iff_of_false (hd _ (List.getElem_mem _) _ (List.getElem_mem _)) ?_
        intro hrun
        exact hrun g.length hig (by omega) ((wideGap_boundary hg hrest).mpr (hb hrest))
      · obtain ⟨l, rfl⟩ : ∃ l, i = g.length + l := ⟨i - g.length, by omega⟩
        rw [sameRun_append_right]
        simpa using ha l m (by omega) hm

/-- A classification agrees with the runs exactly if every group is uniform and any two groups are
told apart. -/
theorem GapPartition.agreesWith_iff {gs : List Group} (h : GapPartition gs) :
    AgreesWith f gs.flatten ↔ (∀ g ∈ gs, Uniform f g) ∧ gs.Pairwise (Distinct f) := by
  induction gs with
  | nil => simp [AgreesWith]
  | cons g gs ih =>
    have hg : g.IsChain Adjacent := h.tight g List.mem_cons_self
    have hflat : Distinct f g gs.flatten ↔ ∀ b ∈ gs, Distinct f g b := by
      simp only [Distinct, List.mem_flatten]
      constructor
      · intro hd b hb r hr s hs
        exact hd r hr s ⟨b, hb, hs⟩
      · rintro hd r hr s ⟨b, hb, hs⟩
        exact hd b hb r hr s hs
    rw [List.flatten_cons, agreesWith_append h.ne_nil hg h.head_apart, ih h.tail, hflat,
      List.pairwise_cons, List.forall_mem_cons]
    tauto

end Agreement

theorem GapPartition.length_le_one_iff {gs : List Group} (h : GapPartition gs) :
    gs.length ≤ 1 ↔ ∀ k, ¬ WideGap gs.flatten k := by
  match gs, h with
  | [], _ => simp [WideGap]
  | [g], h => simpa using not_wideGap_of_isChain (h.tight g List.mem_cons_self)
  | a :: b :: gs, h =>
    have hr : (b :: gs).flatten ≠ [] := by simp [h.tail.ne_nil]
    refine iff_of_false (by simp) fun hn => hn a.length ?_
    rw [List.flatten_cons, wideGap_boundary h.ne_nil hr]
    exact h.head_apart hr

/-- One group ends and another starts right before the record at position `k`. -/
def SplitsAt (gs : List Group) (k : Nat) : Prop :=
  ∃ left right, gs = left ++ right ∧ left ≠ [] ∧ right ≠ [] ∧ left.flatten.length = k

theorem splitsAt_cons {g : Group} {gs : List Group} (hne : ∀ a ∈ gs, a ≠ []) {k : Nat} :
    SplitsAt (g :: gs) k ↔
      k = g.length ∧ gs ≠ [] ∨ g.length < k ∧ SplitsAt gs (k - g.length) := by
  constructor
  · rintro ⟨left, right, heq, hl, hr, rfl⟩
    cases left with
    | nil => exact absurd rfl hl
    | cons a left =>
      obtain ⟨rfl, rfl⟩ := List.cons.inj heq
      cases left with
      | nil => exact .inl ⟨by simp, by simpa using hr⟩
      | cons b left =>
        have hb : 0 < b.length := List.length_pos_iff.mpr (hne b (by simp))
        refine .inr ⟨?_, b :: left, right, rfl, by simp, hr, ?_⟩
        · simp only [List.flatten_cons, List.length_append]
          omega
        · simp
  · rintro (⟨rfl, hgs⟩ | ⟨hk, left, right, rfl, hl, hr, hlen⟩)
    · exact ⟨[g], gs, rfl, by simp, hgs, by simp⟩
    · refine ⟨g :: left, right, rfl, by simp, hr, ?_⟩
      rw [List.flatten_cons, List.length_append, hlen]
      omega

theorem GapPartition.splitsAt_iff {gs : List Group} (h : GapPartition gs) {k : Nat} :
    SplitsAt gs k ↔ WideGap gs.flatten k := by
  induction gs generalizing k with
  | nil => simp [SplitsAt, WideGap]
  | cons g gs ih =>
    rw [splitsAt_cons h.tail.nonempty, List.flatten_cons]
    rcases Nat.lt_trichotomy k g.length with hk | rfl | hk
    · refine iff_of_false (by omega) ?_
      rw [wideGap_append_left hk]
      exact not_wideGap_of_isChain (h.tight g List.mem_cons_self) k
    · by_cases hgs : gs = []
      · simp [hgs, WideGap]
      · have hr : gs.flatten ≠ [] := by
          cases gs with
          | nil => exact absurd rfl hgs
          | cons b gs => simp [h.tail.ne_nil]
        rw [wideGap_boundary h.ne_nil hr]
        exact iff_of_true (.inl ⟨rfl, hgs⟩) (h.head_apart hr)
    · obtain ⟨m, rfl⟩ : ∃ m, k = g.length + m := ⟨k - g.length, by omega⟩
      rw [wideGap_append_right (by omega), ← ih h.tail, Nat.add_sub_cancel_left]
      simp only [Nat.lt_add_right_iff_pos, show 0 < m by omega, true_and]
      refine or_iff_right ?_
      omega

theorem splitsAt_groups_iff (rs : List Record) (k : Nat) :
    SplitsAt (groups rs) k ↔ WideGap rs k := by
  rw [(groups_gapPartition rs).splitsAt_iff, groups_flatten]

theorem isChain_iff_neighbours {α : Type*} {R : α → α → Prop} {l : List α} :
    l.IsChain R ↔ ∀ a b, [a, b] <:+: l → R a b := by
  constructor
  · intro h a b hab
    have hpair := List.IsChain.infix h hab
    exact List.isChain_pair.mp hpair
  · intro h
    apply List.isChain_iff_forall_rel_of_append_cons_cons.mpr
    rintro a b l₁ l₂ rfl
    exact h a b ⟨l₁, l₂, by simp⟩

theorem GapPartition.eq_groups {gs : List Group} (h : GapPartition gs) :
    gs = groups gs.flatten := by
  symm
  apply List.splitBy_flatten
  · intro hnil
    exact h.nonempty [] hnil rfl
  · intro g hg
    exact (h.tight g hg).imp fun a b hab => decide_eq_true hab
  · refine h.apart.imp ?_
    rintro a b ⟨ha, hb, hab⟩
    exact ⟨ha, hb, decide_eq_false hab⟩

/-- The groups of a file are the one partition of its records into runs that hold no gap of more
than two bytes and are more than two bytes apart. -/
theorem groups_eq_iff_gap_partition (rs : List Record) (gs : List Group) :
    groups rs = gs ↔
      (∀ g ∈ gs, g ≠ []) ∧ gs.flatten = rs ∧
      (∀ g ∈ gs, ∀ a b, [a, b] <:+: g → b.start - a.stop ≤ 2) ∧
      ∀ g h, [g, h] <:+: gs → ∀ a ∈ g.getLast?, ∀ b ∈ h.head?, 2 < b.start - a.stop := by
  constructor
  · rintro rfl
    have hp := groups_gapPartition rs
    refine ⟨hp.nonempty, groups_flatten rs, ?_, ?_⟩
    · intro g hg a b hab
      exact isChain_iff_neighbours.mp (hp.tight g hg) a b hab
    · intro g h hgh a ha b hb
      obtain ⟨hg, hh, hwide⟩ := isChain_iff_neighbours.mp hp.apart g h hgh
      rw [List.getLast?_eq_some_getLast hg, Option.mem_some] at ha
      rw [List.head?_eq_some_head hh, Option.mem_some] at hb
      subst ha hb
      exact Int.not_le.mp hwide
  · rintro ⟨hne, hjoin, htight, hwide⟩
    have hp : GapPartition gs := by
      constructor
      · exact hne
      · intro g hg
        exact isChain_iff_neighbours.mpr (htight g hg)
      · apply isChain_iff_neighbours.mpr
        intro g h hgh
        have hg : g ≠ [] := hne g (hgh.subset (by simp))
        have hh : h ≠ [] := hne h (hgh.subset (by simp))
        refine ⟨hg, hh, Int.not_le.mpr ?_⟩
        exact hwide g h hgh _ (List.getLast_mem_getLast? hg) _ (List.head_mem_head? hh)
    rw [← hjoin]
    exact hp.eq_groups.symm

end ImportGroups
