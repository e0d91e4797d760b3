import ImportGroups.Source.Outline

/-!
The outline of a tree without bounds.

A tree counts the trees in it, and the functions that go through it are given that count as a bound.
Where the count is right, the bound is never met: what they find is given by a recursion on the tree.
-/

namespace ImportGroups.Source.Tree

theorem sizeOf_lt_of_mem_children {t c : Tree} (h : c ∈ t.children) : sizeOf c < sizeOf t := by
  have hlist := List.sizeOf_lt_of_mem h
  cases t
  simp only [Tree.mk.sizeOf_spec] at hlist ⊢
  omega

/-- What a tree and all trees in it show, from left to right and from the root down. -/
def outline (t : Tree) : List Event :=
  t.event?.toList ++ t.children.attach.flatMap fun c => outline c.1
termination_by sizeOf t
decreasing_by exact sizeOf_lt_of_mem_children c.2

theorem outline_eq (t : Tree) : t.outline = t.event?.toList ++ t.children.flatMap outline := by
  rw [outline]
  simp [List.flatMap_subtype, List.unattach_attach]

/-- The visible trees that stand for a tree in the one above it. -/
def frontier (t : Tree) : List Tree :=
  if t.isVisible then [t] else t.children.attach.flatMap fun c => frontier c.1
termination_by sizeOf t
decreasing_by exact sizeOf_lt_of_mem_children c.2

theorem frontier_of_visible {t : Tree} (h : t.isVisible = true) : t.frontier = [t] := by
  rw [frontier, if_pos h]

theorem frontier_of_hidden {t : Tree} (h : t.isVisible = false) :
    t.frontier = t.children.flatMap frontier := by
  rw [frontier, if_neg (by simp [h])]
  simp [List.flatMap_subtype, List.unattach_attach]

def total (ts : List Tree) : Nat := ts.foldr (fun t n => t.size + n) 0

@[simp] theorem total_nil : total [] = 0 := rfl

@[simp] theorem total_cons (t : Tree) (ts : List Tree) : total (t :: ts) = t.size + total ts := rfl

@[simp] theorem total_append (ts us : List Tree) : total (ts ++ us) = total ts + total us := by
  induction ts with
  | nil => simp
  | cons t ts ih => simp [ih, Nat.add_assoc]

inductive Counted : Tree → Prop where
  | intro {t : Tree} : t.size = total t.children + 1 → (∀ c ∈ t.children, Counted c) → Counted t

theorem Counted.size {t : Tree} (h : Counted t) : t.size = total t.children + 1 := by
  cases h with
  | intro hs _ => exact hs

theorem Counted.children {t : Tree} (h : Counted t) : ∀ c ∈ t.children, Counted c := by
  cases h with
  | intro _ hc => exact hc

theorem collectEvents_eq {fuel : Nat} {ts : List Tree} (hts : ∀ t ∈ ts, Counted t)
    (hfuel : total ts ≤ fuel) (found : List Event) :
    collectEvents fuel ts found = (ts.flatMap outline).reverse ++ found := by
  induction fuel generalizing ts found with
  | zero =>
    cases ts with
    | nil => rfl
    | cons t ts =>
      have := (hts t List.mem_cons_self).size
      rw [total_cons] at hfuel
      omega
  | succ fuel ih =>
    cases ts with
    | nil => rfl
    | cons t ts =>
      have ht := hts t List.mem_cons_self
      have hsize := ht.size
      have hall : ∀ u ∈ t.children ++ ts, Counted u := by
        intro u hu
        rcases List.mem_append.mp hu with hu | hu
        · exact ht.children u hu
        · exact hts u (List.mem_cons_of_mem t hu)
      rw [total_cons] at hfuel
      rw [collectEvents, ih hall (by rw [total_append]; omega), List.flatMap_cons, outline_eq]
      cases t.event? <;> simp

theorem visibleAmong_eq {fuel : Nat} {ts : List Tree} (hts : ∀ t ∈ ts, Counted t)
    (hfuel : total ts ≤ fuel) : visibleAmong fuel ts = ts.flatMap frontier := by
  induction fuel generalizing ts with
  | zero =>
    cases ts with
    | nil => rfl
    | cons t ts =>
      have := (hts t List.mem_cons_self).size
      rw [total_cons] at hfuel
      omega
  | succ fuel ih =>
    cases ts with
    | nil => rfl
    | cons t ts =>
      have ht := hts t List.mem_cons_self
      have hsize := ht.size
      have htail : ∀ u ∈ ts, Counted u := fun u hu => hts u (List.mem_cons_of_mem t hu)
      rw [total_cons] at hfuel
      rw [visibleAmong, List.flatMap_cons]
      cases hv : t.isVisible with
      | true => simp [ih htail (by omega), frontier_of_visible hv]
      | false =>
        have hall : ∀ u ∈ t.children ++ ts, Counted u := by
          intro u hu
          exact (List.mem_append.mp hu).elim (ht.children u) (htail u)
        simp [ih hall (by rw [total_append]; omega), frontier_of_hidden hv]

theorem Counted.visibleChildren {t : Tree} (h : Counted t) :
    t.visibleChildren = t.children.flatMap frontier :=
  visibleAmong_eq h.children (by have := h.size; omega)

/-- Where the items start that a tree stands for and that belong to no header. -/
def others (t : Tree) : List Spot :=
  (t.frontier.filter fun item => !item.isHeaderItem).map (·.start.toSpot)

theorem others_of_hidden {t : Tree} (h : t.isVisible = false) :
    t.others = t.children.flatMap others := by
  simp only [others, frontier_of_hidden h, List.filter_flatMap, List.map_flatMap]
  rfl

theorem others_of_headerItem {t : Tree} (hv : t.isVisible = true) (hi : t.isHeaderItem = true) :
    t.others = [] := by
  simp [others, frontier_of_visible hv, hi]

theorem others_of_item {t : Tree} (hv : t.isVisible = true) (hi : t.isHeaderItem = false) :
    t.others = [t.start.toSpot] := by
  simp [others, frontier_of_visible hv, hi]

theorem Counted.events {t : Tree} (h : Counted t) :
    t.events = (t.children.flatMap others).map Event.otherItem ++ t.outline := by
  have hall : ∀ u ∈ [t], Counted u := by simpa using h
  have houtline := collectEvents_eq hall (Nat.le_of_eq (by simp) : total [t] ≤ t.size) []
  have hothers : t.children.flatMap others =
      ((t.children.flatMap frontier).filter fun item => !item.isHeaderItem).map
        (·.start.toSpot) := by
    rw [List.filter_flatMap, List.map_flatMap]
    rfl
  simp only [Tree.events, h.visibleChildren, houtline, hothers, List.map_map]
  simp [Function.comp_def]

theorem foldl_add_size (ts : List Tree) (s : Sums) :
    (ts.foldl Sums.add s).size = s.size + total ts := by
  induction ts generalizing s with
  | nil => simp
  | cons t ts ih =>
    rw [List.foldl_cons, ih, total_cons, ← Nat.add_assoc]
    rfl

theorem counted_node {label : Label} {ts : List Tree} {here : Mark} (h : ∀ t ∈ ts, Counted t) :
    Counted (.node label ts here) := by
  refine .intro ?_ h
  show (ts.foldl Sums.add {}).size + 1 = total ts + 1
  rw [foldl_add_size]
  simp

theorem counted_leaf (s : Symbol) (lead : Nat) (start stop : Mark) :
    Counted (.leaf s lead start stop) := by
  refine .intro rfl ?_
  intro c hc
  simp [leaf] at hc

end ImportGroups.Source.Tree
