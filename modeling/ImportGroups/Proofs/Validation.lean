import ImportGroups.Proofs.GapPartition
import ImportGroups.Violation
import Mathlib.Data.List.Perm.Subperm

/-!
What the validation of groups accepts.

Three categories of paths leave room for three groups at most, so the limit on the number of groups
rejects nothing that the other two rules accept.
-/

namespace ImportGroups

def pathCategories : List Category := [.external, .internal, .stdlib]

theorem classify_mem_pathCategories (root path : String) :
    classify root path ∈ pathCategories := by
  unfold classify pathCategories
  split_ifs <;> decide

theorem classify_ne_mixed (root path : String) : classify root path ≠ .mixed := by
  intro h
  have := classify_mem_pathCategories root path
  rw [h] at this
  simp [pathCategories] at this

theorem Group.category_ne_mixed_iff {root : String} {g : Group} :
    Group.category root g ≠ .mixed ↔ Uniform (fun r => classify root r.path) g := by
  cases g with
  | nil => simp [Group.category, Uniform]
  | cons r rs =>
    have hall : (rs.all fun s => classify root s.path == classify root r.path) = true ↔
        ∀ s ∈ rs, classify root s.path = classify root r.path := by simp
    constructor
    · intro h
      have hrs : ∀ s ∈ rs, classify root s.path = classify root r.path := by
        rw [← hall]
        by_contra hn
        simp [Group.category, hn] at h
      have hr : ∀ s ∈ r :: rs, classify root s.path = classify root r.path := by
        simpa using hrs
      intro a ha b hb
      exact (hr a ha).trans (hr b hb).symm
    · intro h
      have hrs : ∀ s ∈ rs, classify root s.path = classify root r.path :=
        fun s hs => h s (List.mem_cons_of_mem r hs) r List.mem_cons_self
      have hcat : Group.category root (r :: rs) = classify root r.path := if_pos (hall.mpr hrs)
      rw [hcat]
      exact classify_ne_mixed root r.path

theorem Group.category_of_mem {root : String} {g : Group} {r : Record} (hr : r ∈ g)
    (h : Group.category root g ≠ .mixed) : Group.category root g = classify root r.path := by
  have hu := Group.category_ne_mixed_iff.mp h
  cases g with
  | nil => simp at hr
  | cons a rs =>
    have hall : (rs.all fun s => classify root s.path == classify root a.path) = true := by
      simpa using fun s hs => hu s (List.mem_cons_of_mem a hs) a List.mem_cons_self
    have hcat : Group.category root (a :: rs) = classify root a.path := if_pos hall
    rw [hcat]
    exact hu a List.mem_cons_self r hr

/-- Groups without a mixed one differ in category exactly if no two of their members agree. -/
theorem category_ne_iff_distinct {root : String} {a b : Group} (ha : a ≠ []) (hb : b ≠ [])
    (hma : Group.category root a ≠ .mixed) (hmb : Group.category root b ≠ .mixed) :
    Group.category root a ≠ Group.category root b ↔
      Distinct (fun r => classify root r.path) a b := by
  constructor
  · intro hne r hr s hs heq
    apply hne
    rw [Group.category_of_mem hr hma, Group.category_of_mem hs hmb]
    exact heq
  · intro hd heq
    obtain ⟨r, hr⟩ := List.exists_mem_of_ne_nil a ha
    obtain ⟨s, hs⟩ := List.exists_mem_of_ne_nil b hb
    apply hd r hr s hs
    rw [Group.category_of_mem hr hma, Group.category_of_mem hs hmb] at heq
    exact heq

theorem firstMixed?_eq_none_iff {root : String} {gs : List Group} {i : Nat} :
    firstMixed? root i gs = none ↔ ∀ g ∈ gs, Group.category root g ≠ .mixed := by
  induction gs generalizing i with
  | nil => simp [firstMixed?]
  | cons g gs ih =>
    by_cases hg : Group.category root g = .mixed
    · simp [firstMixed?, hg]
    · simp [firstMixed?, hg, ih]

theorem firstDuplicate?_eq_none_iff {seen cs : List Category} :
    firstDuplicate? seen cs = none ↔ cs.Nodup ∧ ∀ c ∈ cs, c ∉ seen := by
  induction cs generalizing seen with
  | nil => simp [firstDuplicate?]
  | cons c cs ih =>
    rw [firstDuplicate?]
    cases hi : seen.idxOf? c with
    | some i =>
      have hc : c ∈ seen := by
        by_contra hn
        simp [List.idxOf?_eq_none_iff.mpr hn] at hi
      simp [hc]
    | none =>
      have hc : c ∉ seen := List.idxOf?_eq_none_iff.mp hi
      simp only [ih, List.nodup_cons, List.mem_append, List.mem_cons, List.not_mem_nil, or_false,
        forall_eq_or_imp]
      constructor
      · rintro ⟨hn, hs⟩
        exact ⟨⟨fun hm => hs c hm (Or.inr rfl), hn⟩, hc, fun d hd hm => hs d hd (Or.inl hm)⟩
      · rintro ⟨⟨hm, hn⟩, _, hs⟩
        refine ⟨hn, fun d hd => ?_⟩
        rintro (hds | rfl)
        · exact hs d hd hds
        · exact hm hd

/-- Groups of different categories, none of them mixed or empty, are three at most. -/
theorem length_le_maxGroups {root : String} {gs : List Group} (hne : ∀ g ∈ gs, g ≠ [])
    (hm : ∀ g ∈ gs, Group.category root g ≠ .mixed)
    (hd : (gs.map (Group.category root)).Nodup) : gs.length ≤ maxGroups := by
  have hsub : gs.map (Group.category root) ⊆ pathCategories := by
    intro c hc
    obtain ⟨g, hg, rfl⟩ := List.mem_map.mp hc
    obtain ⟨r, hr⟩ := List.exists_mem_of_ne_nil g (hne g hg)
    rw [Group.category_of_mem hr (hm g hg)]
    exact classify_mem_pathCategories root r.path
  have hle := (List.subperm_of_subset hd hsub).length_le
  simpa [pathCategories, maxGroups] using hle

theorem validate_eq_none_iff {root : String} {gs : List Group} (hne : ∀ g ∈ gs, g ≠ []) :
    validate root gs = none ↔ gs.length ≤ 1 ∨
      (∀ g ∈ gs, Group.category root g ≠ .mixed) ∧ (gs.map (Group.category root)).Nodup := by
  by_cases hone : gs.length ≤ 1
  · have hmax : ¬ gs.length > maxGroups := by simp [maxGroups]; omega
    simp [validate, hone, hmax]
  · by_cases hmax : gs.length > maxGroups
    · simp only [validate, hmax, if_true, reduceCtorEq, hone, false_or, false_iff]
      rintro ⟨hm, hd⟩
      have := length_le_maxGroups hne hm hd
      omega
    · simp only [validate, hmax, hone, if_false, false_or, Option.or_eq_none_iff,
        firstMixed?_eq_none_iff, firstDuplicate?_eq_none_iff]
      simp

/-- A file passes exactly if it has no wide gap, or if two of its imports are of one category
exactly when no wide gap stands between them. -/
theorem analyze_eq_none_iff_gaps_separate_categories (root : String) (rs : List Record) :
    analyze root rs = none ↔
      (∀ k, ¬ WideGap rs k) ∨
      ∀ i j (_ : i < j) (_ : j < rs.length),
        classify root rs[i].path = classify root rs[j].path ↔
          ∀ k, i < k → k ≤ j → ¬ WideGap rs k := by
  have hp := groups_gapPartition rs
  have hone := hp.length_le_one_iff
  have hagree := hp.agreesWith_iff (f := fun r => classify root r.path)
  rw [groups_flatten] at hone hagree
  have hdistinct : (∀ g ∈ groups rs, Group.category root g ≠ .mixed) →
      (((groups rs).map (Group.category root)).Nodup ↔
        (groups rs).Pairwise (Distinct fun r => classify root r.path)) := by
    intro hm
    rw [List.Nodup, List.pairwise_map]
    refine List.Pairwise.iff_of_mem fun ha hb => ?_
    exact category_ne_iff_distinct (hp.nonempty _ ha) (hp.nonempty _ hb) (hm _ ha) (hm _ hb)
  rw [analyze, validate_eq_none_iff hp.nonempty, hone]
  refine or_congr_right ?_
  refine Iff.trans ?_ hagree.symm
  rw [and_congr_right hdistinct]
  simp only [Group.category_ne_mixed_iff]

end ImportGroups
