import ImportGroups.Proofs.Validation
import Mathlib.Data.List.Nodup

/-!
The violation that is reported.

Of the rules that are broken the first one is reported, and of the groups that break it the first
one is named. An empty group has a category of its own, so two empty groups repeat each other.
-/

namespace ImportGroups

variable {root : String} {gs : List Group}

/-- What a category says about the members of a group. -/
inductive HasCategory (root : String) : Group → Category → Prop where
  | empty : HasCategory root [] .unknown
  | shared {g : Group} {c : Category} (hne : g ≠ []) (h : ∀ r ∈ g, classify root r.path = c) :
      HasCategory root g c
  | mixed {g : Group} {r s : Record} (hr : r ∈ g) (hs : s ∈ g)
      (h : classify root r.path ≠ classify root s.path) : HasCategory root g .mixed

theorem hasCategory_category (root : String) (g : Group) :
    HasCategory root g (Group.category root g) := by
  by_cases hm : Group.category root g = .mixed
  · have hu : ¬ Uniform (fun r => classify root r.path) g := fun hu =>
      Group.category_ne_mixed_iff.mpr hu hm
    simp only [Uniform, not_forall] at hu
    obtain ⟨r, hr, s, hs, hrs⟩ := hu
    rw [hm]
    exact .mixed hr hs hrs
  · by_cases hg : g = []
    · subst hg
      exact .empty
    · exact .shared hg fun r hr => (Group.category_of_mem hr hm).symm

theorem HasCategory.unique {g : Group} {c d : Category} (hc : HasCategory root g c)
    (hd : HasCategory root g d) : c = d := by
  cases hc with
  | empty =>
    cases hd with
    | empty => rfl
    | shared hne _ => exact absurd rfl hne
    | mixed hr _ _ => simp at hr
  | shared hne h =>
    cases hd with
    | empty => exact absurd rfl hne
    | shared _ h' =>
      obtain ⟨r, hr⟩ := List.exists_mem_of_ne_nil g hne
      rw [← h r hr, h' r hr]
    | mixed hr hs hrs => exact absurd ((h _ hr).trans (h _ hs).symm) hrs
  | mixed hr hs hrs =>
    cases hd with
    | empty => simp at hr
    | shared _ h => exact absurd ((h _ hr).trans (h _ hs).symm) hrs
    | mixed _ _ _ => rfl

theorem hasCategory_iff {g : Group} {c : Category} :
    HasCategory root g c ↔ Group.category root g = c := by
  constructor
  · intro h
    exact (hasCategory_category root g).unique h
  · rintro rfl
    exact hasCategory_category root g

def CategoryAt (root : String) (gs : List Group) (k : Nat) (c : Category) : Prop :=
  ∃ g, gs[k]? = some g ∧ HasCategory root g c

theorem categoryAt_iff {k : Nat} {c : Category} :
    CategoryAt root gs k c ↔ (gs.map (Group.category root))[k]? = some c := by
  simp only [CategoryAt, hasCategory_iff, List.getElem?_map, Option.map_eq_some_iff]

/-- The group at position `k` is the first mixed one, and `s` is the set of the categories of its
members. -/
structure FirstMixed (root : String) (gs : List Group) (k : Nat) (s : CategorySet) : Prop where
  mixed : ∃ g, gs[k]? = some g ∧ HasCategory root g .mixed ∧
    ∀ c, s.contains c = true ↔ ∃ r ∈ g, classify root r.path = c
  least : ∀ j < k, ¬ CategoryAt root gs j .mixed

/-- The group at position `j` is the first one with the category of an earlier group, which is `c`,
and the group at position `i` is the only earlier one of that category. -/
structure FirstRepeat (root : String) (gs : List Group) (c : Category) (i j : Nat) : Prop where
  lt : i < j
  earlier : CategoryAt root gs i c
  later : CategoryAt root gs j c
  only : ∀ k < j, CategoryAt root gs k c → k = i
  least : ∀ b < j, ∀ a < b, ∀ d, CategoryAt root gs a d → ¬ CategoryAt root gs b d

theorem CategorySet.ofList_contains {cs : List Category} {c : Category} :
    (CategorySet.ofList cs).contains c = true ↔ c ∈ cs := by
  cases c <;> simp [CategorySet.ofList, CategorySet.contains]

theorem CategorySet.ext_contains {s t : CategorySet}
    (h : ∀ c, s.contains c = true ↔ t.contains c = true) : s = t := by
  have heq : ∀ c, s.contains c = t.contains c := fun c => Bool.eq_iff_iff.mpr (h c)
  cases s
  cases t
  simp only [CategorySet.mk.injEq]
  exact ⟨heq .external, heq .internal, heq .mixed, heq .stdlib, heq .unknown⟩

theorem CategorySet.mem_toList {s : CategorySet} {c : Category} :
    c ∈ s.toList ↔ s.contains c = true := by
  have hall : c ∈ Category.all := by cases c <;> decide
  simp [CategorySet.toList, hall]

theorem Group.eq_categories_iff {g : Group} {s : CategorySet} :
    s = Group.categories root g ↔
      ∀ c, s.contains c = true ↔ ∃ r ∈ g, classify root r.path = c := by
  have hcontains : ∀ c, (Group.categories root g).contains c = true ↔
      ∃ r ∈ g, classify root r.path = c := by
    intro c
    rw [Group.categories, CategorySet.ofList_contains, List.mem_map]
  constructor
  · rintro rfl
    exact hcontains
  · intro h
    apply CategorySet.ext_contains
    intro c
    rw [h, hcontains]

theorem FirstMixed.categories {k : Nat} {s : CategorySet} (h : FirstMixed root gs k s) :
    2 ≤ s.toList.length ∧ ∀ c ∈ s.toList, c ∈ pathCategories := by
  obtain ⟨g, _, hg, hs⟩ := h.mixed
  constructor
  · obtain ⟨r, hr, t, ht, hrt⟩ : ∃ r ∈ g, ∃ t ∈ g,
        classify root r.path ≠ classify root t.path := by
      cases hg with
      | shared hne hall =>
        obtain ⟨r, hr⟩ := List.exists_mem_of_ne_nil g hne
        exact absurd (hall r hr) (classify_ne_mixed root r.path)
      | mixed hr ht hrt => exact ⟨_, hr, _, ht, hrt⟩
    have hpair : [classify root r.path, classify root t.path] ⊆ s.toList := by
      intro c hc
      rw [CategorySet.mem_toList, hs]
      simp only [List.mem_cons, List.not_mem_nil, or_false] at hc
      rcases hc with rfl | rfl
      · exact ⟨r, hr, rfl⟩
      · exact ⟨t, ht, rfl⟩
    have hnodup : [classify root r.path, classify root t.path].Nodup := by simpa using hrt
    simpa using (List.subperm_of_subset hnodup hpair).length_le
  · intro c hc
    obtain ⟨r, _, rfl⟩ := (hs c).mp (CategorySet.mem_toList.mp hc)
    exact classify_mem_pathCategories root r.path

theorem firstMixed?_eq_some_iff {i : Nat} {v : Violation} :
    firstMixed? root i gs = some v ↔
      ∃ (k : Nat) (s : CategorySet), v = .invalidGrouping ((i + k : Nat) : Int) s ∧
        FirstMixed root gs k s := by
  induction gs generalizing i with
  | nil =>
    constructor
    · intro h
      cases h
    · rintro ⟨k, s, _, hm⟩
      obtain ⟨g, hg, _⟩ := hm.mixed
      simp at hg
  | cons g gs ih =>
    by_cases hg : Group.category root g = .mixed
    · rw [firstMixed?, if_pos hg, Option.some.injEq]
      constructor
      · rintro rfl
        refine ⟨0, _, rfl, ⟨g, rfl, hasCategory_iff.mpr hg, ?_⟩, by simp⟩
        exact Group.eq_categories_iff.mp rfl
      · rintro ⟨k, s, rfl, hm⟩
        -- a later position is not the first one
        have hk : k = 0 := by
          by_contra hk
          exact hm.least 0 (by omega) ⟨g, rfl, hasCategory_iff.mpr hg⟩
        subst hk
        obtain ⟨g', hg', _, hs⟩ := hm.mixed
        obtain rfl : g = g' := by simpa using hg'
        rw [Group.eq_categories_iff.mpr hs, Nat.add_zero]
    · rw [firstMixed?, if_neg hg, ih]
      constructor
      · rintro ⟨k, s, rfl, hm⟩
        refine ⟨k + 1, s, by congr 2; omega, ⟨by simpa using hm.mixed, ?_⟩⟩
        intro j hj hcat
        cases j with
        | zero =>
          obtain ⟨g', hg', hc⟩ := hcat
          obtain rfl : g = g' := by simpa using hg'
          exact hg (hasCategory_iff.mp hc)
        | succ j => exact hm.least j (by omega) (by simpa [CategoryAt] using hcat)
      · rintro ⟨k, s, rfl, hm⟩
        cases k with
        | zero =>
          obtain ⟨g', hg', hc, _⟩ := hm.mixed
          obtain rfl : g = g' := by simpa using hg'
          exact absurd (hasCategory_iff.mp hc) hg
        | succ k =>
          refine ⟨k, s, by congr 2; omega, ⟨by simpa using hm.mixed, ?_⟩⟩
          intro j hj hcat
          exact hm.least (j + 1) (by omega) (by simpa [CategoryAt] using hcat)

theorem firstMixed?_none_iff {i : Nat} :
    firstMixed? root i gs = none ↔ ∀ k, ¬ CategoryAt root gs k .mixed := by
  rw [firstMixed?_eq_none_iff]
  constructor
  · rintro h k ⟨g, hg, hc⟩
    exact h g (List.mem_of_getElem? hg) (hasCategory_iff.mp hc)
  · intro h g hg hm
    obtain ⟨k, hk⟩ := List.getElem?_of_mem hg
    exact h k ⟨g, hk, hasCategory_iff.mpr hm⟩

/-- A search that has seen different categories names the first repeated one. -/
theorem firstDuplicate?_eq_some_iff {seen cs : List Category} {v : Violation}
    (hseen : seen.Nodup) :
    firstDuplicate? seen cs = some v ↔
      ∃ (c : Category) (i j : Nat), v = .duplicateGroupType c i j ∧ i < j ∧ seen.length ≤ j ∧
        (seen ++ cs)[i]? = some c ∧ (seen ++ cs)[j]? = some c ∧ ((seen ++ cs).take j).Nodup := by
  induction cs generalizing seen with
  | nil =>
    constructor
    · intro h
      cases h
    · rintro ⟨c, i, j, _, _, hj, _, hlater, _⟩
      simp [List.getElem?_eq_none hj] at hlater
  | cons c cs ih =>
    have hat : (seen ++ c :: cs)[seen.length]? = some c := by simp
    rw [firstDuplicate?]
    cases hi : seen.idxOf? c with
    | some i =>
      have hic : seen[i]? = some c := by
        obtain ⟨h, hget, _⟩ := List.idxOf?_eq_some_iff.mp hi
        rw [List.getElem?_eq_getElem h, hget]
      obtain ⟨hlt, _⟩ := List.getElem?_eq_some_iff.mp hic
      have hic' : (seen ++ c :: cs)[i]? = some c := by
        rw [List.getElem?_append_left hlt, hic]
      simp only [Option.some.injEq]
      constructor
      · rintro rfl
        exact ⟨c, i, seen.length, rfl, hlt, le_rfl, hic', hat, by simpa using hseen⟩
      · rintro ⟨d, a, b, rfl, hab, hb, ha, hd, hn⟩
        -- `c` stands twice before any later position
        have hb' : b = seen.length := by
          by_contra hne
          have htwice : ((seen ++ c :: cs).take b)[i]? =
              ((seen ++ c :: cs).take b)[seen.length]? := by
            rw [List.getElem?_take_of_lt (by omega), List.getElem?_take_of_lt (by omega), hic', hat]
          have hlen : i < ((seen ++ c :: cs).take b).length := by simp; omega
          have := (List.getElem?_inj hlen hn).mp htwice
          omega
        subst hb'
        obtain rfl : c = d := by simpa using hd
        have ha' : seen[a]? = some c := by rwa [List.getElem?_append_left hab] at ha
        have : i = a := (List.getElem?_inj hlt hseen).mp (hic.trans ha'.symm)
        rw [this]
    | none =>
      have hc : c ∉ seen := List.idxOf?_eq_none_iff.mp hi
      have hnodup : (seen ++ [c]).Nodup :=
        hseen.append (List.nodup_singleton c) (List.disjoint_singleton.mpr hc)
      simp only [ih hnodup, List.append_assoc, List.singleton_append, List.length_append,
        List.length_singleton]
      constructor
      · rintro ⟨d, a, b, rfl, hab, hb, hrest⟩
        exact ⟨d, a, b, rfl, hab, by omega, hrest⟩
      · rintro ⟨d, a, b, rfl, hab, hb, ha, hd, hn⟩
        refine ⟨d, a, b, rfl, hab, ?_, ha, hd, hn⟩
        by_contra hlt
        obtain rfl : b = seen.length := by omega
        obtain rfl : c = d := by simpa using hd
        rw [List.getElem?_append_left hab] at ha
        exact hc (List.mem_of_getElem? ha)

theorem take_nodup_iff {cs : List Category} {j : Nat} :
    (cs.take j).Nodup ↔ ∀ b < j, ∀ a < b, ∀ d, cs[a]? = some d → cs[b]? ≠ some d := by
  rw [List.Nodup, List.pairwise_iff_getElem]
  constructor
  · intro h b hb a hab d ha hd
    obtain ⟨hla, hga⟩ := List.getElem?_eq_some_iff.mp ha
    obtain ⟨hlb, hgb⟩ := List.getElem?_eq_some_iff.mp hd
    apply h a b (by simp; omega) (by simp; omega) hab
    rw [List.getElem_take, List.getElem_take, hga, hgb]
  · intro h a b ha hb hab heq
    simp only [List.length_take] at ha hb
    rw [List.getElem_take, List.getElem_take] at heq
    apply h b (by omega) a hab cs[b]
    · rw [← heq]
      exact List.getElem?_eq_getElem _
    · exact List.getElem?_eq_getElem _

theorem firstRepeat_iff {c : Category} {i j : Nat} :
    FirstRepeat root gs c i j ↔
      i < j ∧ (gs.map (Group.category root))[i]? = some c ∧
        (gs.map (Group.category root))[j]? = some c ∧
        ((gs.map (Group.category root)).take j).Nodup := by
  simp only [take_nodup_iff, ← categoryAt_iff, ne_eq]
  constructor
  · intro h
    exact ⟨h.lt, h.earlier, h.later, h.least⟩
  · rintro ⟨hlt, hi, hj, hleast⟩
    refine ⟨hlt, hi, hj, ?_, hleast⟩
    intro k hk hc
    rcases Nat.lt_trichotomy k i with hki | rfl | hik
    · exact absurd hi (hleast i hlt k hki c hc)
    · rfl
    · exact absurd hc (hleast k hk i hik c hi)

theorem firstDuplicate?_categories {v : Violation} :
    firstDuplicate? [] (gs.map (Group.category root)) = some v ↔
      ∃ (c : Category) (i j : Nat), v = .duplicateGroupType c i j ∧ FirstRepeat root gs c i j := by
  simp only [firstDuplicate?_eq_some_iff List.nodup_nil, firstRepeat_iff, List.nil_append,
    List.length_nil, Nat.zero_le, true_and]

theorem categories_nodup_iff :
    (gs.map (Group.category root)).Nodup ↔
      ∀ a b c, CategoryAt root gs a c → CategoryAt root gs b c → a = b := by
  simp only [categoryAt_iff]
  constructor
  · intro h a b c ha hb
    obtain ⟨hlt, _⟩ := List.getElem?_eq_some_iff.mp ha
    exact (List.getElem?_inj hlt h).mp (ha.trans hb.symm)
  · intro h
    rw [List.nodup_iff_getElem?_ne_getElem?]
    intro a b hab hb heq
    have := h a b _ (heq.trans (List.getElem?_eq_getElem hb)) (List.getElem?_eq_getElem hb)
    omega

def Few (gs : List Group) : Prop := gs.length = 2 ∨ gs.length = 3

theorem validate_of_few (h : Few gs) :
    validate root gs =
      (firstMixed? root 0 gs).or (firstDuplicate? [] (gs.map (Group.category root))) := by
  unfold Few at h
  rw [validate, if_neg (by simp [maxGroups]; omega), if_neg (by omega)]

theorem validate_of_many (h : 3 < gs.length) :
    validate root gs = some (.tooManyGroups gs.length) :=
  if_pos h

theorem validate_of_single (h : gs.length ≤ 1) : validate root gs = none := by
  rw [validate, if_neg (by simp [maxGroups]; omega), if_pos h]

theorem few_cases (gs : List Group) : gs.length ≤ 1 ∨ Few gs ∨ 3 < gs.length := by
  unfold Few
  omega

theorem validate_eq_some_iff {v : Violation} :
    validate root gs = some v ↔
      3 < gs.length ∧ v = .tooManyGroups gs.length ∨
      Few gs ∧ (∃ (k : Nat) (s : CategorySet), v = .invalidGrouping k s ∧ FirstMixed root gs k s) ∨
      Few gs ∧ (∀ k, ¬ CategoryAt root gs k .mixed) ∧
        ∃ (c : Category) (i j : Nat), v = .duplicateGroupType c i j ∧ FirstRepeat root gs c i j := by
  rcases few_cases gs with hone | hfew | hmany
  · have hfew : ¬ Few gs := by unfold Few; omega
    simp [validate_of_single hone, hfew, show ¬ 3 < gs.length by omega]
  · have hmany : ¬ 3 < gs.length := by unfold Few at hfew; omega
    rw [validate_of_few hfew, Option.or_eq_some_iff, firstMixed?_none_iff,
      firstMixed?_eq_some_iff, firstDuplicate?_categories]
    simp only [hmany, hfew, false_and, true_and, false_or, Nat.zero_add]
  · have hfew : ¬ Few gs := by unfold Few; omega
    simp [validate_of_many hmany, hfew, hmany, eq_comm]

theorem validate_accepts_iff :
    validate root gs = none ↔ gs.length ≤ 1 ∨
      Few gs ∧ (∀ k, ¬ CategoryAt root gs k .mixed) ∧
        ∀ a b c, CategoryAt root gs a c → CategoryAt root gs b c → a = b := by
  rcases few_cases gs with hone | hfew | hmany
  · simp [validate_of_single hone, hone]
  · have hone : ¬ gs.length ≤ 1 := by unfold Few at hfew; omega
    rw [validate_of_few hfew, Option.or_eq_none_iff, firstMixed?_none_iff,
      firstDuplicate?_eq_none_iff, categories_nodup_iff]
    simp [hone, hfew]
  · have hfew : ¬ Few gs := by unfold Few; omega
    simp [validate_of_many hmany, hfew, show ¬ gs.length ≤ 1 by omega]

/-- The validation reports the first violation and nothing else. -/
theorem validate_reports_first_violation (root : String) (gs : List Group) :
    (∀ n : Int, validate root gs = some (.tooManyGroups n) ↔ n = gs.length ∧ 3 < n) ∧
    (∀ (i : Int) (s : CategorySet), validate root gs = some (.invalidGrouping i s) ↔
      (gs.length = 2 ∨ gs.length = 3) ∧ ∃ k : Nat, i = k ∧ FirstMixed root gs k s) ∧
    (∀ (i : Int) (s : CategorySet), validate root gs = some (.invalidGrouping i s) →
      2 ≤ s.toList.length ∧ ∀ c ∈ s.toList, c ∈ [.external, .internal, .stdlib]) ∧
    (∀ (c : Category) (i j : Int), validate root gs = some (.duplicateGroupType c i j) ↔
      (gs.length = 2 ∨ gs.length = 3) ∧ (∀ k, ¬ CategoryAt root gs k .mixed) ∧
        ∃ a b : Nat, i = a ∧ j = b ∧ FirstRepeat root gs c a b) ∧
    (validate root gs = none ↔ gs.length ≤ 1 ∨
      (gs.length = 2 ∨ gs.length = 3) ∧ (∀ k, ¬ CategoryAt root gs k .mixed) ∧
        ∀ a b c, CategoryAt root gs a c → CategoryAt root gs b c → a = b) := by
  have hmixed : ∀ (i : Int) (s : CategorySet), validate root gs = some (.invalidGrouping i s) ↔
      Few gs ∧ ∃ k : Nat, i = k ∧ FirstMixed root gs k s := by
    intro i s
    simp only [validate_eq_some_iff, reduceCtorEq, and_false, false_and, exists_false, or_false,
      false_or, Violation.invalidGrouping.injEq]
    constructor
    · rintro ⟨hfew, k, _, ⟨rfl, rfl⟩, hk⟩
      exact ⟨hfew, k, rfl, hk⟩
    · rintro ⟨hfew, k, rfl, hk⟩
      exact ⟨hfew, k, s, ⟨rfl, rfl⟩, hk⟩
  refine ⟨?_, hmixed, ?_, ?_, validate_accepts_iff⟩
  · intro n
    simp only [validate_eq_some_iff, reduceCtorEq, and_false, false_and, exists_false, or_false,
      Violation.tooManyGroups.injEq]
    omega
  · intro i s h
    obtain ⟨_, k, _, hk⟩ := (hmixed i s).mp h
    exact hk.categories
  · intro c i j
    simp only [validate_eq_some_iff, reduceCtorEq, and_false, false_and, exists_false, false_or,
      Violation.duplicateGroupType.injEq]
    constructor
    · rintro ⟨hfew, hm, _, a, b, ⟨rfl, rfl, rfl⟩, hr⟩
      exact ⟨hfew, hm, a, b, rfl, rfl, hr⟩
    · rintro ⟨hfew, hm, a, b, rfl, rfl, hr⟩
      exact ⟨hfew, hm, c, a, b, ⟨rfl, rfl, rfl⟩, hr⟩

end ImportGroups
