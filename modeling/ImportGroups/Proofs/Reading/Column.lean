import ImportGroups.Source.Rounds

/-!
A reading with one version.

As long as the automaton leaves nothing open, a contest has one version, and the places below it
form one column: a state and the tree that leads to it, down to the bottom. Forming a phrase and
taking a token are then simple functions on the column.
-/

namespace ImportGroups.Source

/-- The states of a version with the trees that lead to them, the latest first. -/
abbrev Column := List (State × Tree)

namespace Column

def state : Column → State
  | [] => Automaton.initial
  | (s, _) :: _ => s

def mark (start : Mark) : Column → Mark
  | [] => start
  | (_, t) :: _ => t.stop

def trees (k : Column) : List Tree := (k.map (·.2)).reverse

def states (k : Column) : List State := k.map (·.1)

@[simp] theorem state_cons (s : State) (t : Tree) (k : Column) : state ((s, t) :: k) = s := rfl

@[simp] theorem mark_cons (start : Mark) (s : State) (t : Tree) (k : Column) :
    mark start ((s, t) :: k) = t.stop := rfl

@[simp] theorem trees_nil : trees [] = [] := rfl

@[simp] theorem trees_cons (s : State) (t : Tree) (k : Column) :
    trees ((s, t) :: k) = trees k ++ [t] := by
  simp [trees]

@[simp] theorem trees_append (k k' : Column) : trees (k ++ k') = trees k' ++ trees k := by
  simp [trees]

@[simp] theorem states_cons (s : State) (t : Tree) (k : Column) :
    states ((s, t) :: k) = s :: states k := rfl

@[simp] theorem states_append (k k' : Column) : states (k ++ k') = states k ++ states k' := by
  simp [states]

/-- A top of a column with so many trees that are no extras, of which one is the lowest. -/
inductive Top : Nat → Column → Prop where
  | last {s : State} {t : Tree} : t.extra = false → Top 1 [(s, t)]
  | part {n : Nat} {s : State} {t : Tree} {k : Column} :
      t.extra = false → Top n k → Top (n + 1) ((s, t) :: k)
  | extra {n : Nat} {s : State} {t : Tree} {k : Column} :
      t.extra = true → Top n k → Top n ((s, t) :: k)

theorem Top.pos {n : Nat} {top : Column} (h : Top n top) : 0 < n := by
  induction h with
  | last => exact Nat.one_pos
  | part => exact Nat.succ_pos _
  | extra _ _ ih => exact ih

theorem Top.ne_nil {n : Nat} {top : Column} (h : Top n top) : top ≠ [] := by
  rintro rfl
  cases h

/-- The top of a column becomes a phrase. The extras above its parts stay above the phrase. -/
def reduce (start : Mark) (rule : Rule) (top below : Column) : Column :=
  let s := Automaton.afterPhrase below.state rule.phrase
  let tree := Tree.node (.phrase rule.phrase) (trees (top.dropWhile (·.2.extra))) (below.mark start)
  (top.takeWhile (·.2.extra)).map (fun x => (s, x.2)) ++
    (s, { tree with rank := tree.rank + rule.rank }) :: below

theorem mark_reduce {start : Mark} {rule : Rule} {top : Column} (h : Top rule.parts top)
    (below : Column) : (reduce start rule top below).mark start = (top ++ below).mark start := by
  cases top with
  | nil => exact absurd rfl h.ne_nil
  | cons x top =>
    cases hx : x.2.extra with
    | true => simp [reduce, hx, mark]
    | false => simp [reduce, hx, mark, Tree.node, trees]

def Plain (k : Column) : Prop := ∀ x ∈ k, x.2.extra = false

theorem Plain.top {k : Column} (h : k.Plain) (hne : k ≠ []) : Top k.length k := by
  induction k with
  | nil => exact absurd rfl hne
  | cons x k ih =>
    have hx := h x List.mem_cons_self
    by_cases hk : k = []
    · rw [hk]
      exact .last hx
    · exact .part hx (ih (fun y hy => h y (List.mem_cons_of_mem x hy)) hk)

theorem Plain.reduce {top : Column} (h : top.Plain) (start : Mark) (rule : Rule) (below : Column) :
    reduce start rule top below =
      (Automaton.afterPhrase below.state rule.phrase,
        { Tree.node (.phrase rule.phrase) top.trees (below.mark start) with
          rank := (Tree.node (.phrase rule.phrase) top.trees (below.mark start)).rank + rule.rank }) ::
        below := by
  cases top with
  | nil => rfl
  | cons x top => simp [Column.reduce, h x List.mem_cons_self]

def Stands (places : Stacks) (start : Mark) (i : Nat) : Column → Prop
  | [] => ∃ p, places[i]? = some p ∧ p.state = Automaton.initial ∧ p.mark = start ∧ p.links = []
  | (s, t) :: k => ∃ p j, places[i]? = some p ∧ p.state = s ∧ p.mark = t.stop ∧
      p.links = [⟨j, some t⟩] ∧ j < i ∧ Stands places start j k

variable {places : Stacks} {start : Mark} {i : Nat} {k : Column}

theorem Stands.place (h : k.Stands places start i) :
    (places.place i).state = k.state ∧ (places.place i).mark = k.mark start := by
  cases k with
  | nil =>
    obtain ⟨p, hp, hs, hm, _⟩ := h
    exact ⟨by simp [Stacks.place, hp, hs, state], by simp [Stacks.place, hp, hm, mark]⟩
  | cons x k =>
    obtain ⟨p, j, hp, hs, hm, _⟩ := h
    exact ⟨by simp [Stacks.place, hp, hs, state], by simp [Stacks.place, hp, hm, mark]⟩

theorem Stands.lt_size (h : k.Stands places start i) : i < places.size := by
  cases k with
  | nil =>
    obtain ⟨p, hp, _⟩ := h
    exact (Array.getElem?_eq_some_iff.mp hp).1
  | cons x k =>
    obtain ⟨p, j, hp, _⟩ := h
    exact (Array.getElem?_eq_some_iff.mp hp).1

theorem Stands.length_le (h : k.Stands places start i) : k.length ≤ i := by
  induction k generalizing i with
  | nil => exact Nat.zero_le i
  | cons x k ih =>
    obtain ⟨p, j, _, _, _, _, hj, hk⟩ := h
    have := ih hk
    simp only [List.length_cons]
    omega

/-- Another place on top changes nothing below. -/
theorem Stands.push (h : k.Stands places start i) (q : Place) :
    k.Stands (places.push q) start i := by
  have hlt := h.lt_size
  induction k generalizing i with
  | nil =>
    obtain ⟨p, hp, hrest⟩ := h
    exact ⟨p, by rwa [Array.getElem?_push_lt hlt, ← Array.getElem?_eq_getElem hlt], hrest⟩
  | cons x k ih =>
    obtain ⟨p, j, hp, hs, hm, hl, hj, hk⟩ := h
    exact ⟨p, j, by rwa [Array.getElem?_push_lt hlt, ← Array.getElem?_eq_getElem hlt], hs, hm, hl, hj,
      ih hk hk.lt_size⟩

theorem Stands.above (h : k.Stands places start i) (t : Tree) (s : State) :
    Stands (places.push (places.above i (some t) s)) start places.size ((s, t) :: k) :=
  ⟨places.above i (some t) s, i, Array.getElem?_push_size, rfl, rfl, rfl, h.lt_size, h.push _⟩

section Descents

variable {σ : Type} {visit : σ → Descent → σ × Descent.Verdict} {notes : σ} {w : Descent}

theorem run_found {fuel : Nat} (stop : Bool) (hv : visit notes w = (notes, ⟨true, stop⟩))
    (hstop : stop = true ∨ (places.place w.place).links = []) :
    Descent.run places visit (fuel + 1) ⟨[w], [], notes⟩ = ⟨[], [w], notes⟩ := by
  have hround : Descent.round places visit [w] [] [] [] notes = ⟨[], [w], notes⟩ := by
    rcases hstop with rfl | hl
    · simp [Descent.round, hv]
    · cases stop <;> simp [Descent.round, hv, hl]
  rw [Descent.run, if_neg (by simp), hround]
  cases fuel <;> rfl

theorem run_down {fuel j : Nat} {t : Tree} (hv : visit notes w = (notes, ⟨false, false⟩))
    (hl : (places.place w.place).links = [⟨j, some t⟩]) :
    Descent.run places visit (fuel + 1) ⟨[w], [], notes⟩ =
      Descent.run places visit fuel ⟨[w.down ⟨j, some t⟩], [], notes⟩ := by
  have hround : Descent.round places visit [w] [] [] [] notes =
      ⟨[w.down ⟨j, some t⟩], [], notes⟩ := by
    simp [Descent.round, hv, hl]
  rw [Descent.run, if_neg (by simp), hround]

end Descents

theorem Stands.links {s : State} {t : Tree} (h : Stands places start i ((s, t) :: k)) :
    ∃ j, (places.place i).links = [⟨j, some t⟩] ∧ k.Stands places start j := by
  obtain ⟨p, j, hp, _, _, hl, _, hk⟩ := h
  exact ⟨j, by simp [Stacks.place, hp, hl], hk⟩

/-- The descents that look for a number of trees find the top of the column. -/
theorem run_slices {n : Nat} {top below : Column} (htop : Top n top) (depth fuel : Nat)
    (h : (top ++ below).Stands places start i) (hfuel : top.length < fuel) (ts : List Tree) :
    ∃ j, below.Stands places start j ∧
      Descent.run places (fun (_ : Unit) (w : Descent) =>
          ((), (⟨w.depth == depth + n, w.depth == depth + n⟩ : Descent.Verdict)))
        fuel ⟨[⟨i, ts, depth⟩], [], ()⟩ =
      ⟨[], [⟨j, top.trees ++ ts, depth + n⟩], ()⟩ := by
  induction htop generalizing i depth fuel ts with
  | @last s t ht =>
    obtain ⟨fuel, rfl⟩ : ∃ f, fuel = f + 1 + 1 := ⟨fuel - 2, by simp at hfuel; omega⟩
    obtain ⟨j, hl, hk⟩ := Stands.links h
    refine ⟨j, hk, ?_⟩
    rw [run_down (by simp) hl]
    simp only [Descent.down, ht, Bool.false_eq_true, if_false]
    exact run_found true (by simp) (.inl rfl)
  | @part n s t top ht _ ih =>
    obtain ⟨fuel, rfl⟩ : ∃ f, fuel = f + 1 := ⟨fuel - 1, by omega⟩
    obtain ⟨j, hl, hk⟩ := Stands.links h
    obtain ⟨b, hb, hrun⟩ := ih (depth + 1) fuel hk (by simpa using hfuel) (t :: ts)
    refine ⟨b, hb, ?_⟩
    rw [run_down (by simp) hl]
    simp only [Descent.down, ht, Bool.false_eq_true, if_false]
    simpa [Nat.add_assoc, Nat.add_comm 1 n] using hrun
  | @extra n s t top ht htop ih =>
    obtain ⟨fuel, rfl⟩ : ∃ f, fuel = f + 1 := ⟨fuel - 1, by omega⟩
    obtain ⟨j, hl, hk⟩ := Stands.links h
    obtain ⟨b, hb, hrun⟩ := ih depth fuel hk (by simpa using hfuel) (t :: ts)
    refine ⟨b, hb, ?_⟩
    rw [run_down (by simp [Nat.ne_of_gt htop.pos]) hl]
    simp only [Descent.down, ht, if_true]
    simpa using hrun

theorem Stands.slices {n : Nat} {top below : Column} (htop : Top n top)
    (h : (top ++ below).Stands places start i) :
    ∃ j, below.Stands places start j ∧ places.slices i n = [⟨j, [top.trees]⟩] := by
  have hlen := h.length_le
  have hlt := h.lt_size
  have hle : top.length ≤ (top ++ below).length := by simp
  obtain ⟨j, hj, hrun⟩ := run_slices htop 0 (Array.size places + 1) h (by omega) []
  refine ⟨j, hj, ?_⟩
  simp only [Nat.zero_add] at hrun
  simp only [Stacks.slices, Descent.fromPlace, hrun]
  simp [Slice.ofDescents]

theorem run_wholeWays (fuel depth : Nat) (h : k.Stands places start i) (hfuel : k.length < fuel)
    (ts : List Tree) :
    ∃ w : Descent, w.trees = k.trees ++ ts ∧
      Descent.run places (fun (_ : Unit) (w : Descent) =>
          ((), (⟨(places.place w.place).links.isEmpty, false⟩ : Descent.Verdict)))
        fuel ⟨[⟨i, ts, depth⟩], [], ()⟩ = ⟨[], [w], ()⟩ := by
  induction k generalizing i fuel depth ts with
  | nil =>
    obtain ⟨fuel, rfl⟩ : ∃ f, fuel = f + 1 := ⟨fuel - 1, by simp at hfuel; omega⟩
    obtain ⟨p, hp, _, _, hl⟩ := h
    have hlinks : (places.place i).links = [] := by simp [Stacks.place, hp, hl]
    exact ⟨⟨i, ts, depth⟩, rfl, run_found false (by simp [hlinks]) (.inr hlinks)⟩
  | cons x k ih =>
    obtain ⟨fuel, rfl⟩ : ∃ f, fuel = f + 1 := ⟨fuel - 1, by simp at hfuel; omega⟩
    obtain ⟨s, t⟩ := x
    obtain ⟨j, hl, hk⟩ := h.links
    obtain ⟨w, hw, hrun⟩ := ih fuel (if t.extra then depth else depth + 1) hk
      (by simpa using hfuel) (t :: ts)
    refine ⟨w, ?_, ?_⟩
    · simpa [trees] using hw
    · rw [run_down (by simp [hl]) hl]
      exact hrun

theorem Stands.wholeWays (h : k.Stands places start i) : places.wholeWays i = [k.trees] := by
  have hlen := h.length_le
  have hlt := h.lt_size
  obtain ⟨w, hw, hrun⟩ := run_wholeWays (Array.size places + 1) 0 h (by omega) []
  simp only [Stacks.wholeWays, Descent.fromPlace, hrun]
  simpa using hw

end Column

end ImportGroups.Source
