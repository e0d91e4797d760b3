import ImportGroups.Proofs.Records
import ImportGroups.Proofs.Soundness.Declarations

/-!
Trees inside of trees.

Of two trees inside of one tree, one lies inside of the other or they lie one behind the other. So if
an import declaration starts before the first other item of a file then it ends before it, too.
-/

namespace ImportGroups.Source

open Text (Bytes)

namespace Tree

inductive Inside (c : Tree) : Tree → Prop where
  | refl : Inside c c
  | child {d t : Tree} : Inside c d → d ∈ t.children → Inside c t

variable {src : Bytes} {c d t : Tree} {ts : List Tree} {e : Event}

theorem mem_outline_iff : e ∈ t.outline ↔ ∃ c, Inside c t ∧ c.event? = some e := by
  constructor
  · intro he
    induction hsize : sizeOf t using Nat.strongRecOn generalizing t with
    | ind n ih =>
      rw [outline_eq, List.mem_append, List.mem_flatMap] at he
      rcases he with he | ⟨d, hd, he⟩
      · exact ⟨t, .refl, Option.mem_toList.mp he⟩
      · obtain ⟨c, hc, hevent⟩ := ih _ (hsize ▸ sizeOf_lt_of_mem_children hd) he rfl
        exact ⟨c, .child hc hd, hevent⟩
  · rintro ⟨c, hc, hevent⟩
    induction hc with
    | refl =>
      rw [outline_eq, hevent]
      exact List.mem_cons_self
    | child _ hd ih => exact outline_subset hd ih

theorem Inside.trans (h : Inside c d) (h' : Inside d t) : Inside c t := by
  induction h' with
  | refl => exact h
  | child _ hd ih => exact .child ih hd

theorem Inside.outline_subset (h : Inside c t) : c.outline ⊆ t.outline := by
  induction h with
  | refl => exact List.Subset.refl _
  | child _ hd ih => exact fun e he => Tree.outline_subset hd (ih he)

theorem Inside.bounds (h : Inside c t) (ht : t.Sound src) :
    c.Sound src ∧ t.start.offset ≤ c.start.offset ∧ c.stop.offset ≤ t.stop.offset := by
  induction h with
  | refl => exact ⟨ht, Nat.le_refl _, Nat.le_refl _⟩
  | child _ hd ih =>
    obtain ⟨hsound, hstart, hstop⟩ := ih (ht.children _ hd)
    obtain ⟨hle, hle'⟩ := ht.between.bounds _ hd
    exact ⟨hsound, by omega, by omega⟩

theorem Inside.composed (h : Inside c t) (ht : t.Composed src) : c.Composed src := by
  induction h with
  | refl => exact ht
  | child _ hd ih => exact ih (ht.children _ hd)

/-- Two trees that stand side by side are the same, or one comes behind the other. -/
theorem Between.eq_or_apart {a b : Nat} (h : Between ts a b) (hc : c ∈ ts) (hd : d ∈ ts) :
    c = d ∨ c.stop.offset ≤ d.start.offset ∨ d.stop.offset ≤ c.start.offset := by
  obtain ⟨i, hi, rfl⟩ := List.getElem_of_mem hc
  obtain ⟨j, hj, rfl⟩ := List.getElem_of_mem hd
  have hpairs := List.pairwise_iff_getElem.mp h.pairwise
  rcases Nat.lt_trichotomy i j with hij | rfl | hij
  · exact .inr (.inl (hpairs i j hi hj hij))
  · exact .inl rfl
  · exact .inr (.inr (hpairs j i hj hi hij))

theorem Sound.nested_or_apart (ht : t.Sound src) (hc : Inside c t) (hd : Inside d t) :
    Inside c d ∨ Inside d c ∨ c.stop.offset ≤ d.start.offset ∨ d.stop.offset ≤ c.start.offset := by
  induction hc with
  | refl => exact .inr (.inl hd)
  | @child c' t hc hc' ih =>
    cases hd with
    | refl => exact .inl (.child hc hc')
    | @child d' _ hd hd' =>
      have hcbounds := hc.bounds (ht.children c' hc')
      have hdbounds := hd.bounds (ht.children d' hd')
      rcases ht.between.eq_or_apart hc' hd' with rfl | hle | hle
      · exact ih (ht.children _ hc') hd
      · exact .inr (.inr (.inl (by omega)))
      · exact .inr (.inr (.inr (by omega)))

/-- The first event is shown before the second one: by a tree that comes before the other, or that the
other lies in. -/
def Precedes (t : Tree) (e e' : Event) : Prop :=
  ∃ c d, Inside c t ∧ c.event? = some e ∧ Inside d t ∧ d.event? = some e' ∧
    (c.stop.offset ≤ d.start.offset ∨ ∃ k ∈ c.children, Inside d k)

theorem Precedes.child {e' : Event} (h : d.Precedes e e') (hd : d ∈ t.children) : t.Precedes e e' := by
  obtain ⟨c, c', hc, hevent, hc', hevent', hplace⟩ := h
  exact ⟨c, c', .child hc hd, hevent, .child hc' hd, hevent', hplace⟩

theorem Sound.pairwise_outline (ht : t.Sound src) : t.outline.Pairwise t.Precedes := by
  induction ht with
  | @intro t start stop between size shaped children ih =>
    rw [outline_eq]
    refine List.pairwise_append.mpr ⟨?_, List.pairwise_flatMap.mpr ⟨fun c hc => ?_, ?_⟩, ?_⟩
    · cases t.event? with
      | none => exact .nil
      | some e => exact List.pairwise_singleton _ _
    · exact (ih c hc).imp fun h => h.child hc
    · refine between.pairwise.imp_of_mem fun {c d} hc hd hle e he e' he' => ?_
      obtain ⟨c', hc', hevent⟩ := mem_outline_iff.mp he
      obtain ⟨d', hd', hevent'⟩ := mem_outline_iff.mp he'
      have hcbounds := hc'.bounds (children c hc)
      have hdbounds := hd'.bounds (children d hd)
      exact ⟨c', d', .child hc' hc, hevent, .child hd' hd, hevent', .inl (by omega)⟩
    · intro e he e' he'
      obtain ⟨c, hc, he'⟩ := List.mem_flatMap.mp he'
      obtain ⟨d, hd, hevent'⟩ := mem_outline_iff.mp he'
      exact ⟨t, d, .refl, Option.mem_toList.mp he, .child hd hc, hevent', .inr ⟨c, hc, hd⟩⟩

theorem Specless.label_ne (h : t.Specless) (hc : Inside c t) : c.label ≠ .phrase .importSpec := by
  induction hc with
  | refl =>
    cases h with
    | intro hlabel _ => exact hlabel
  | child _ hd ih =>
    cases h with
    | intro _ hchildren => exact ih (hchildren _ hd)

theorem inside_of_mem_frontier {item : Tree} (h : item ∈ t.frontier) : Inside item t := by
  induction hsize : sizeOf t using Nat.strongRecOn generalizing t with
  | ind n ih =>
    cases hv : t.isVisible with
    | true =>
      rw [frontier_of_visible hv, List.mem_singleton] at h
      exact h ▸ .refl
    | false =>
      rw [frontier_of_hidden hv] at h
      obtain ⟨d, hd, h⟩ := List.mem_flatMap.mp h
      exact .child (ih _ (hsize ▸ sizeOf_lt_of_mem_children hd) h rfl) hd

theorem Sound.inside_or_apart {item : Tree} (ht : t.Sound src) (hc : Inside c t)
    (hv : c.isVisible = true) (hitem : item ∈ t.frontier) :
    Inside c item ∨ c.stop.offset ≤ item.start.offset ∨ item.stop.offset ≤ c.start.offset := by
  induction hc with
  | refl =>
    rw [frontier_of_visible hv, List.mem_singleton] at hitem
    exact .inl (hitem ▸ .refl)
  | @child c' t hc hc' ih =>
    cases htv : t.isVisible with
    | true =>
      rw [frontier_of_visible htv, List.mem_singleton] at hitem
      exact .inl (hitem ▸ .child hc hc')
    | false =>
      rw [frontier_of_hidden htv] at hitem
      obtain ⟨d', hd', hitem⟩ := List.mem_flatMap.mp hitem
      have hcbounds := hc.bounds (ht.children c' hc')
      have hdbounds := (inside_of_mem_frontier hitem).bounds (ht.children d' hd')
      rcases ht.between.eq_or_apart hc' hd' with rfl | hle | hle
      · exact ih (ht.children _ hc') hitem
      · exact .inr (.inl (by omega))
      · exact .inr (.inr (by omega))

end Tree

theorem le_foldl_min {n m : Nat} {ns : List Nat} : n ≤ ns.foldl min m ↔ n ≤ m ∧ ∀ k ∈ ns, n ≤ k := by
  induction ns generalizing m with
  | nil => simp
  | cons k ns ih =>
    rw [List.foldl_cons, ih, List.forall_mem_cons, Nat.le_min, and_assoc]

theorem headerLimit_events {t : Tree} (h : t.Counted) (size : Nat) : headerLimit size t.events =
    ((t.children.flatMap Tree.others).map (·.offset)).foldl min size := by
  have hnone : ∀ e ∈ t.outline, ∀ start, e ≠ .otherItem start := by
    intro e he start heq
    obtain ⟨c, -, hevent⟩ := Tree.mem_outline_iff.mp he
    unfold Tree.event? at hevent
    split_ifs at hevent
    · rw [heq] at hevent
      cases hevent
    · split at hevent
      · rw [heq] at hevent
        cases hevent
      · rw [heq] at hevent
        cases hevent
      · obtain ⟨path, -, hpath⟩ := Option.map_eq_some_iff.mp hevent
        rw [heq] at hpath
        cases hpath
      · cases hevent
  rw [headerLimit, h.events, List.filterMap_append, List.filterMap_map]
  refine congrArg (List.foldl min size) ((congrArg₂ (· ++ ·) ?_ ?_).trans (List.append_nil _))
  · exact congrFun (List.filterMap_eq_map (f := fun spot : Spot => spot.offset)) _
  · refine List.filterMap_eq_nil_iff.mpr fun e he => ?_
    cases e with
    | otherItem start => exact absurd rfl (hnone _ he start)
    | packageClause | importDeclaration | importSpec | fault => rfl

theorem Tree.Sound.stop_le_limit {src : Bytes} {t c : Tree} (ht : t.Sound src)
    (hroot : t.label = .phrase .sourceFile ∨ t.label = .error) (hc : Inside c t)
    (hlabel : c.label = .phrase .importDeclaration)
    (hlimit : c.start.offset < headerLimit src.length t.events) :
    c.stop.offset ≤ headerLimit src.length t.events := by
  have hvisible : c.isVisible = true := by rw [isVisible, hlabel]; rfl
  rw [headerLimit_events ht.counted] at hlimit ⊢
  obtain ⟨hsize, hitems⟩ := le_foldl_min.mp (Nat.succ_le_of_lt hlimit)
  refine le_foldl_min.mpr ⟨Nat.le_trans (hc.bounds ht).2.2 ht.stop.1, fun k hk => ?_⟩
  have hlt := hitems k hk
  obtain ⟨spot, hspot, rfl⟩ := List.mem_map.mp hk
  obtain ⟨d, hd, hspot⟩ := List.mem_flatMap.mp hspot
  obtain ⟨item, hitem, rfl⟩ := List.mem_map.mp hspot
  obtain ⟨hitem, -⟩ := List.mem_filter.mp hitem
  have hitemBounds := (inside_of_mem_frontier hitem).bounds (ht.children d hd)
  cases hc with
  | refl =>
    rw [hlabel] at hroot
    rcases hroot with hroot | hroot <;> cases hroot
  | @child c' _ hc hc' =>
    have hcbounds := hc.bounds (ht.children c' hc')
    have hle := hitemBounds.1.le
    rcases ht.between.eq_or_apart hc' hd with rfl | happart | happart
    · rcases (ht.children _ hd).inside_or_apart hc hvisible hitem with h | h | h
      · have := (h.bounds hitemBounds.1).2.1
        omega
      · exact h
      · omega
    · show c.stop.offset ≤ item.start.offset
      omega
    · have hlt : c.start.offset + 1 ≤ item.start.offset := hlt
      omega

end ImportGroups.Source
