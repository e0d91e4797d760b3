import ImportGroups.Proofs.Declarations.Gaps

/-!
Trees of a source in which an import declaration was begun and not finished.

Such a tree is known by what it shows where the word `import` stands: a fault that starts with the
word, or an import declaration with a fault in it. If the items of a file are such that nothing else
starts before the word then the fault counts, and the imports of the file are unknown.
-/

namespace ImportGroups.Source

open Text (Bytes)

namespace Tree

variable {src : Bytes} {t : Tree}

theorem Sound.le_others (h : t.Sound src) : ∀ o ∈ t.others, t.start.offset ≤ o.offset := by
  intro o ho
  obtain ⟨u, hu, rfl⟩ := List.mem_map.mp ho
  exact ((inside_of_mem_frontier (List.mem_filter.mp hu).1).bounds h).2.1

theorem others_of_error (h : t.label = .error) : t.others = [] :=
  others_of_headerItem (by simp [isVisible, h, Label.isVisible]) (by simp [isHeaderItem, isError, h])

end Tree

def Faulty (es : List Event) : Prop := ∃ s o, Event.fault s o ∈ es

def HasClause (es : List Event) : Prop := ∃ a b, Event.packageClause a b ∈ es

/-- The events show that an import declaration was begun at the offset and not finished. -/
def Guilty (i : Nat) (es : List Event) : Prop :=
  (∃ s : Spot, s.offset = i ∧ .fault s true ∈ es) ∨
    ∃ a b s : Spot, ∃ o, a.offset = i ∧ .importDeclaration a b ∈ es ∧ .fault s o ∈ es ∧
      s.offset ≤ b.offset

section Events

variable {es fs : List Event} {i : Nat}

theorem Faulty.mono (h : Faulty es) (hsub : es ⊆ fs) : Faulty fs := by
  obtain ⟨s, o, hs⟩ := h
  exact ⟨s, o, hsub hs⟩

theorem HasClause.mono (h : HasClause es) (hsub : es ⊆ fs) : HasClause fs := by
  obtain ⟨a, b, hab⟩ := h
  exact ⟨a, b, hsub hab⟩

theorem Guilty.mono (h : Guilty i es) (hsub : es ⊆ fs) : Guilty i fs := by
  rcases h with ⟨s, hi, hs⟩ | ⟨a, b, s, o, hi, hab, hs, hle⟩
  · exact .inl ⟨s, hi, hsub hs⟩
  · exact .inr ⟨a, b, s, o, hi, hsub hab, hsub hs, hle⟩

theorem hasPackageClause_of_hasClause (h : HasClause es) : hasPackageClause es = true := by
  obtain ⟨a, b, hab⟩ := h
  exact List.any_eq_true.mpr ⟨_, hab, rfl⟩

theorem le_headerEnd {limit : Nat} {a b : Spot} (h : .importDeclaration a b ∈ es)
    (ha : a.offset < limit) : b.offset ≤ headerEnd limit es := by
  refine le_foldl_max_iff.mpr (.inr ⟨b.offset, ?_, Nat.le_refl _⟩)
  exact List.mem_filterMap.mpr ⟨_, h, if_pos ha⟩

theorem mem_headerFaults {limit : Nat} {s : Spot} {o : Bool} (h : .fault s o ∈ es)
    (hs : s.offset ≤ headerEnd limit es ∨ s.offset < limit ∧ o = true) :
    s ∈ headerFaults limit es := by
  refine List.mem_filterMap.mpr ⟨_, h, ?_⟩
  rcases hs with hs | ⟨hs, rfl⟩
  · simp [hs]
  · simp [hs]

theorem Guilty.headerFaults {limit : Nat} (h : Guilty i es) (hi : i < limit) :
    headerFaults limit es ≠ [] := by
  rcases h with ⟨s, rfl, hs⟩ | ⟨a, b, s, o, rfl, hab, hs, hle⟩
  · exact List.ne_nil_of_mem (mem_headerFaults hs (.inr ⟨hi, rfl⟩))
  · exact List.ne_nil_of_mem (mem_headerFaults hs (.inl (Nat.le_trans hle (le_headerEnd hab hi))))

end Events

namespace Tree

variable {src : Bytes} {t c : Tree} {cs : List Tree} {i j : Nat}

/-- The tree is left out, as a whole or for the time being. -/
def IsLeft (t : Tree) : Prop := t.label = .error ∨ t.label = .skipped ∧ t.extra = false

/-- The items of a file from its beginning to the offset at least, where a declaration was begun. -/
structure IsHead (i : Nat) (t : Tree) : Prop where
  label : t.label = .phrase .fileItems ∨ t.label = .phrase .sourceFile
  extra : t.extra = false
  start : t.start.offset = 0
  le : i ≤ t.stop.offset
  clause : HasClause (t.children.flatMap outline)
  others : ∀ o ∈ t.children.flatMap others, i < o.offset
  guilty : t.stop.offset = i ∨ Guilty i (t.children.flatMap outline)

inductive Front (i : Nat) : Tree → Prop where
  | head {t : Tree} : t.IsHead i → Front i t
  | left {t c : Tree} {cs : List Tree} :
      t.IsLeft → t.start.offset = 0 → t.children = c :: cs → Front i c → Front i t

theorem flatMap_outline_subset (t : Tree) : t.children.flatMap outline ⊆ t.outline := by
  rw [outline_eq]
  exact List.subset_append_right _ _

theorem Front.start (h : Front i t) : t.start.offset = 0 := by
  cases h with
  | head h => exact h.start
  | left _ h => exact h

theorem Front.hasClause (h : Front i t) : HasClause t.outline := by
  induction h with
  | head h => exact h.clause.mono (flatMap_outline_subset _)
  | left _ _ hchildren _ ih => exact ih.mono (outline_subset (by simp [hchildren]))

/-- A tree that starts with the items of the file and is not left out is the tree of the items. -/
theorem Front.isHead (h : Front i t) (hleft : ¬ t.IsLeft) : t.IsHead i := by
  cases h with
  | head h => exact h
  | left h => exact absurd h hleft

structure IsOpenDeclaration (i : Nat) (t : Tree) : Prop where
  label : t.label = .phrase .importDeclaration ∨ t.label = .phrase .fileItems
  extra : t.extra = false
  start : t.start.offset = i
  lt : i < t.stop.offset
  others : ∀ o ∈ t.others, i < o.offset
  guilty : Guilty i t.outline

/-- The word that the declaration starts with, between two offsets. -/
structure IsWord (i j : Nat) (t : Tree) : Prop where
  label : t.label = .token .importWord
  extra : t.extra = false
  start : t.start.offset = i
  stop : t.stop.offset = j

inductive Crosses (i j : Nat) : Tree → Prop where
  | word {t : Tree} : t.IsWord i j → Crosses i j t
  | declaration {t : Tree} : t.IsOpenDeclaration i → Crosses i j t
  | left {t c : Tree} {cs : List Tree} :
      t.IsLeft → t.start.offset = i → t.children = c :: cs → Crosses i j c → Crosses i j t

theorem Crosses.start (h : Crosses i j t) : t.start.offset = i := by
  cases h with
  | word h => exact h.start
  | declaration h => exact h.start
  | left _ h => exact h

theorem Crosses.lt (h : Crosses i j t) (ht : t.Sound src) (hij : i < j) : i < t.stop.offset := by
  induction h with
  | word h => exact h.stop ▸ hij
  | declaration h => exact h.lt
  | @left t c cs _ _ hchildren _ ih =>
    have hc : c ∈ t.children := by simp [hchildren]
    exact Nat.lt_of_lt_of_le (ih (ht.children c hc)) (ht.between.bounds c hc).2

/-- If the tree does not show what is wrong with the declaration then it starts with the word. -/
theorem Crosses.guilty_or (h : Crosses i j t) (ht : t.Counted) :
    Guilty i t.outline ∨ t.frontier.head?.map (·.label) = some (.token .importWord) := by
  induction h with
  | @word t h =>
    have hv : t.isVisible = true := by simp [isVisible, h.label, Label.isVisible, Symbol.isVisible]
    exact .inr (by simp [frontier_of_visible hv, h.label])
  | declaration h => exact .inl h.guilty
  | @left t c cs hleft hstart hchildren hc ih =>
    have hmem : c ∈ t.children := by simp [hchildren]
    rcases ih (ht.children c hmem) with hguilty | hhead
    · exact .inl (hguilty.mono (outline_subset hmem))
    · have hfirst : (t.children.flatMap frontier).head?.map (·.label) =
          some (.token .importWord) := by
        obtain ⟨u, hu, hlabel⟩ := Option.map_eq_some_iff.mp hhead
        obtain ⟨us, hus⟩ := List.head?_eq_some_iff.mp hu
        simp [hchildren, hus, hlabel]
      rcases hleft with hlabel | ⟨hlabel, -⟩
      · have hopen : t.isOpenImport = true := by
          rw [isOpenImport, ht.visibleChildren, hfirst]
          rfl
        exact .inl (.inl ⟨t.start.toSpot, hstart, hopen ▸ fault_of_error hlabel⟩)
      · have hv : t.isVisible = false := by simp [isVisible, hlabel, Label.isVisible]
        exact .inr (by rw [frontier_of_hidden hv, hfirst])

theorem Crosses.guilty_of_error (h : Crosses i j t) (ht : t.Counted) (hlabel : t.label = .error) :
    Guilty i t.outline := by
  have hv : t.isVisible = true := by simp [isVisible, hlabel, Label.isVisible]
  refine (h.guilty_or ht).resolve_right fun hhead => ?_
  simp [frontier_of_visible hv, hlabel] at hhead

theorem Crosses.error_of_extra (h : Crosses i j t) (hextra : t.extra = true) : t.label = .error := by
  cases h with
  | word h => simp [h.extra] at hextra
  | declaration h => simp [h.extra] at hextra
  | left hleft =>
    rcases hleft with h | ⟨-, h⟩
    · exact h
    · simp [h] at hextra

/-- The imports of a source of this size are unknown, by its tree. -/
structure IsFaulty (size : Nat) (t : Tree) : Prop where
  clause : hasPackageClause t.events = true
  faults : headerFaults (headerLimit size t.events) t.events ≠ []

theorem outline_subset_events (h : t.Counted) : t.outline ⊆ t.events := by
  rw [h.events]
  exact List.subset_append_right _ _

theorem isFaulty_of_zero {size : Nat} {s : Spot} {o : Bool} (h : t.Counted)
    (hclause : HasClause t.outline) (hs : .fault s o ∈ t.outline) (hzero : s.offset = 0) :
    t.IsFaulty size := by
  have hsub := outline_subset_events h
  refine ⟨hasPackageClause_of_hasClause (hclause.mono hsub), ?_⟩
  exact List.ne_nil_of_mem (mem_headerFaults (hsub hs) (.inl (hzero ▸ Nat.zero_le _)))

theorem isFaulty_of_guilty {size : Nat} (h : t.Counted) (hclause : HasClause t.outline)
    (hothers : ∀ o ∈ t.children.flatMap others, i < o.offset) (hguilty : Guilty i t.outline)
    (hi : i < size) : t.IsFaulty size := by
  have hsub := outline_subset_events h
  refine ⟨hasPackageClause_of_hasClause (hclause.mono hsub), (hguilty.mono hsub).headerFaults ?_⟩
  rw [headerLimit_events h, ← Nat.succ_le_iff]
  exact le_foldl_min.mpr ⟨hi, List.forall_mem_map.mpr hothers⟩

theorem IsFaulty.imports {size : Nat} (h : t.IsFaulty size) :
    ∃ line, importsOfEvents size t.events = .error (.syntaxError line) := by
  unfold importsOfEvents
  cases hfaults : headerFaults (headerLimit size t.events) t.events with
  | nil => exact absurd hfaults h.faults
  | cons spot spots =>
    dsimp only
    rw [h.clause, hfaults]
    exact ⟨_, rfl⟩

end Tree

end ImportGroups.Source
