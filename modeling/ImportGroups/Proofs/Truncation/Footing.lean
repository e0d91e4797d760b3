import ImportGroups.Proofs.Reading.Column
import ImportGroups.Proofs.Soundness.Recovery

/-!
Stacks with one way down.

Where all versions of a reading come from one, their stacks are columns: from every place one link
leads down. What the automaton does with a column depends on its states alone, and on which of its
trees may stand anywhere. Going down a column there is one way at most, and it comes to the bottom.
-/

namespace ImportGroups.Source

/-- The states that a place stands on, the latest first. The second component says that the tree that
leads to the state may stand anywhere. -/
abbrev Footing := List (State × Bool)

namespace Footing

def state : Footing → State
  | [] => Automaton.initial
  | (q, _) :: _ => q

def below : Nat → Footing → Option Footing
  | 0, f => some f
  | _ + 1, [] => none
  | n + 1, (_, true) :: f => below (n + 1) f
  | n + 1, (_, false) :: f => below n f

@[simp] theorem state_cons (x : State × Bool) (f : Footing) : state (x :: f) = x.1 := rfl

theorem below_suffix {n : Nat} {f g : Footing} (h : below n f = some g) : g <:+ f := by
  fun_induction below n f with
  | case1 f => exact Option.some.inj h ▸ List.suffix_refl f
  | case2 => cases h
  | case3 n q f ih => exact (ih h).trans (List.suffix_cons _ f)
  | case4 n q f ih => exact (ih h).trans (List.suffix_cons _ f)

end Footing

namespace Stacks

variable {s s' s'' : Stacks} {i j n : Nat} {f g : Footing}

/-- Places are added, and those that are there stay as they are. -/
structure Prolongs (s s' : Stacks) : Prop where
  size : s.size ≤ s'.size
  place : ∀ i < s.size, s'.place i = s.place i

theorem Prolongs.refl (s : Stacks) : s.Prolongs s := ⟨Nat.le_refl _, fun _ _ => rfl⟩

theorem Prolongs.trans (h : s.Prolongs s') (h' : s'.Prolongs s'') : s.Prolongs s'' :=
  ⟨Nat.le_trans h.size h'.size, fun i hi =>
    (h'.place i (Nat.lt_of_lt_of_le hi h.size)).trans (h.place i hi)⟩

theorem prolongs_push (s : Stacks) (p : Place) : s.Prolongs (s.push p) :=
  ⟨by simp, fun _ hi => place_push_of_lt hi⟩

/-- The tree leads to the place. An error that may not stand anywhere leads to none. -/
structure LedBy (s : Stacks) (i j : Nat) (t : Tree) : Prop where
  links : (s.place i).links = [⟨j, some t⟩]
  lt : j < i
  mark : (s.place i).mark = t.stop
  plain : t.extra = false → t.isError = false

/-- The place stands on the states of the footing, one below the other down to the bottom. -/
inductive StandsOn (s : Stacks) : Nat → Footing → Prop where
  | bottom {i : Nat} : (s.place i).state = Automaton.initial → (s.place i).links = [] →
      StandsOn s i []
  | above {i j : Nat} {t : Tree} {f : Footing} : s.LedBy i j t → StandsOn s j f →
      StandsOn s i (((s.place i).state, t.extra) :: f)

inductive Lone (s : Stacks) : Nat → Prop where
  | bottom {i : Nat} : (s.place i).links = [] → Lone s i
  | above {i : Nat} {l : Link} : (s.place i).links = [l] → l.below < i → Lone s l.below → Lone s i

inductive Rooted (s : Stacks) : Nat → Prop where
  | bottom {i : Nat} : (s.place i).links = [] → Rooted s i
  | above {i : Nat} {l : Link} {ls : List Link} : (s.place i).links = l :: ls → l.below < i →
      Rooted s l.below → Rooted s i

theorem LedBy.congr {t : Tree} (h : s.LedBy i j t) (hplace : s'.place i = s.place i) : s'.LedBy i j t :=
  ⟨hplace ▸ h.links, h.lt, hplace ▸ h.mark, h.plain⟩

theorem StandsOn.state (h : s.StandsOn i f) : (s.place i).state = f.state := by
  cases h with
  | bottom h => exact h
  | above => rfl

theorem StandsOn.lone (h : s.StandsOn i f) : s.Lone i := by
  induction h with
  | bottom _ h => exact .bottom h
  | above h _ ih => exact .above h.links h.lt ih

theorem Lone.rooted (h : s.Lone i) : s.Rooted i := by
  induction h with
  | bottom h => exact .bottom h
  | above h hlt _ ih => exact .above h hlt ih

theorem StandsOn.length_le (h : s.StandsOn i f) : f.length ≤ i := by
  induction h with
  | bottom => exact Nat.zero_le _
  | above h _ ih =>
    have hlt := h.lt
    rw [List.length_cons]
    omega

theorem StandsOn.prolongs (h : s.StandsOn i f) (hi : i < s.size) (hs : s.Prolongs s') :
    s'.StandsOn i f := by
  induction h with
  | bottom hstate hlinks => exact .bottom (hs.place _ hi ▸ hstate) (hs.place _ hi ▸ hlinks)
  | above h _ ih =>
    rw [← hs.place _ hi]
    exact .above (h.congr (hs.place _ hi)) (ih (Nat.lt_trans h.lt hi))

theorem Lone.prolongs (h : s.Lone i) (hi : i < s.size) (hs : s.Prolongs s') : s'.Lone i := by
  induction h with
  | bottom hlinks => exact .bottom (hs.place _ hi ▸ hlinks)
  | above hlinks hlt _ ih => exact .above (hs.place _ hi ▸ hlinks) hlt (ih (by omega))

theorem Rooted.prolongs (h : s.Rooted i) (hi : i < s.size) (hs : s.Prolongs s') : s'.Rooted i := by
  induction h with
  | bottom hlinks => exact .bottom (hs.place _ hi ▸ hlinks)
  | above hlinks hlt _ ih => exact .above (hs.place _ hi ▸ hlinks) hlt (ih (by omega))

theorem ledBy_push {t : Tree} (hi : i < s.size) (ht : t.extra = false → t.isError = false) (q : State) :
    LedBy (s.push (s.above i (some t) q)) s.size i t := by
  have hplace := place_push_size s (s.above i (some t) q)
  exact ⟨by rw [hplace]; rfl, hi, by rw [hplace]; rfl, ht⟩

theorem StandsOn.push {t : Tree} (h : s.StandsOn i f) (hi : i < s.size)
    (ht : t.extra = false → t.isError = false) (q : State) :
    StandsOn (s.push (s.above i (some t) q)) s.size ((q, t.extra) :: f) := by
  have habove := StandsOn.above (ledBy_push hi ht q) (h.prolongs hi (prolongs_push s _))
  rwa [place_push_size] at habove

theorem Lone.push (h : s.Lone i) (hi : i < s.size) (tree? : Option Tree) (q : State) :
    Lone (s.push (s.above i tree? q)) s.size :=
  .above (l := ⟨i, tree?⟩) (by rw [place_push_size]; rfl) hi (h.prolongs hi (prolongs_push s _))

theorem Rooted.push (h : s.Rooted i) (hi : i < s.size) (tree? : Option Tree) (q : State) :
    Rooted (s.push (s.above i tree? q)) s.size := by
  have hlinks : (place (s.push (s.above i tree? q)) s.size).links = [⟨i, tree?⟩] := by
    rw [place_push_size]
    rfl
  exact .above hlinks hi (h.prolongs hi (prolongs_push s _))

end Stacks

namespace Descent

variable {σ : Type} {s : Stacks} {visit : σ → Descent → σ × Verdict}

/-- Descents that end where they are found, from places with one way down, do not become more. -/
theorem round_length (hstop : ∀ notes w, (visit notes w).2.found = true →
      (visit notes w).2.stop = true)
    (ws kept added found : List Descent) (notes : σ) (hws : ∀ w ∈ ws, s.Lone w.place)
    (hkept : ∀ w ∈ kept, s.Lone w.place) (hadded : ∀ w ∈ added, s.Lone w.place) :
    (∀ w ∈ (round s visit ws kept added found notes).descents, s.Lone w.place) ∧
      (round s visit ws kept added found notes).found.length +
          (round s visit ws kept added found notes).descents.length ≤
        found.length + (ws.length + kept.length + added.length) := by
  induction ws generalizing kept added found notes with
  | nil =>
    refine ⟨fun w hw => ?_, by simp [round]⟩
    rcases List.mem_append.mp hw with hw | hw
    · exact hkept w (List.mem_reverse.mp hw)
    · exact hadded w (List.mem_reverse.mp hw)
  | cons w ws ih =>
    obtain ⟨hw, hrest⟩ := List.forall_mem_cons.mp hws
    rw [round]
    dsimp only
    split
    · rename_i l ls hgo hlinks
      have hnot : (visit notes w).2.found = false := by
        rw [Bool.eq_false_iff]
        intro h
        simp [hstop notes w h] at hgo
      cases hw with
      | bottom h => simp [h] at hlinks
      | @above _ l' h _ hbelow =>
        rw [h] at hlinks
        obtain ⟨rfl, rfl⟩ := List.cons_eq_cons.mp hlinks
        have hdown : s.Lone (w.down l').place := by
          unfold down
          split <;> exact hbelow
        obtain ⟨hlone, hle⟩ := ih (w.down l' :: kept) added found (visit notes w).1 hrest
          (List.forall_mem_cons.mpr ⟨hdown, hkept⟩) hadded
        simp only [hnot, Bool.false_eq_true, if_false, List.take_nil, List.map_nil,
          List.reverse_nil, List.nil_append]
        refine ⟨hlone, Nat.le_trans hle ?_⟩
        simp only [List.length_cons]
        omega
    · obtain ⟨hlone, hle⟩ := ih kept added (if (visit notes w).2.found then w :: found else found)
        (visit notes w).1 hrest hkept hadded
      refine ⟨hlone, Nat.le_trans hle ?_⟩
      simp only [List.length_cons]
      split
      · simp only [List.length_cons]
        omega
      · omega

theorem run_length (hstop : ∀ notes w, (visit notes w).2.found = true →
      (visit notes w).2.stop = true) (fuel : Nat) {p : Progress σ}
    (h : ∀ w ∈ p.descents, s.Lone w.place) :
    (run s visit fuel p).found.length ≤ p.found.length + p.descents.length := by
  induction fuel generalizing p with
  | zero => exact Nat.le_add_right _ _
  | succ fuel ih =>
    rw [run]
    split
    · exact Nat.le_add_right _ _
    · obtain ⟨hlone, hle⟩ := round_length hstop p.descents [] [] p.found p.notes h
        (List.forall_mem_nil _) (List.forall_mem_nil _)
      have hrest := ih hlone
      simp only [List.length_nil] at hle
      omega

end Descent

theorem Slice.length_ofDescents (ws : List Descent) (slices : List Slice) :
    (ofDescents ws slices).length ≤ slices.length + ws.length := by
  induction ws generalizing slices with
  | nil => simp [ofDescents]
  | cons w ws ih =>
    rw [ofDescents]
    split
    · refine Nat.le_trans (ih _) ?_
      simp
    · refine Nat.le_trans (ih _) ?_
      simp only [List.length_cons]
      omega

namespace Stacks

variable {s s' : Stacks} {i j n : Nat} {f g : Footing}

/-- Looks for the places so many parts down. -/
def seek (depth : Nat) (_ : Unit) (w : Descent) : Unit × Descent.Verdict :=
  ((), ⟨w.depth == depth, w.depth == depth⟩)

theorem length_slices_le (hn : 1 ≤ n) (hlinks : (s.place i).links.length ≤ n)
    (hlone : ∀ l ∈ (s.place i).links, s.Lone l.below) (depth : Nat) :
    (s.slices i depth).length ≤ n := by
  have hstop : ∀ notes w, (seek depth notes w).2.found = true →
      (seek depth notes w).2.stop = true := fun _ _ h => h
  have hround : ∃ p : Descent.Progress Unit, Descent.run s (seek depth) (Array.size s + 1)
        ⟨[⟨i, [], 0⟩], [], ()⟩ = Descent.run s (seek depth) (Array.size s) p ∧
      (∀ w ∈ p.descents, s.Lone w.place) ∧ p.found.length + p.descents.length ≤ n := by
    refine ⟨_, by rw [Descent.run, if_neg (by simp)], ?_⟩
    rw [Descent.round]
    dsimp only
    split
    · rename_i l ls hgo hl
      have hnot : (seek depth () ⟨i, [], 0⟩).2.found = false := hgo
      rw [hl] at hlone hlinks
      have hdown : ∀ l' ∈ l :: ls, s.Lone (Descent.down ⟨i, [], 0⟩ l').place := by
        intro l' hl'
        unfold Descent.down
        split <;> exact hlone l' hl'
      simp only [hnot, Bool.false_eq_true, if_false, Descent.round, List.reverse_cons,
        List.reverse_nil, List.nil_append, List.append_nil, List.reverse_reverse]
      refine ⟨fun w hw => ?_, ?_⟩
      · rcases List.mem_append.mp hw with hw | hw
        · exact List.mem_singleton.mp hw ▸ hdown l List.mem_cons_self
        · obtain ⟨l', hl', rfl⟩ := List.mem_map.mp hw
          exact hdown l' (List.mem_cons_of_mem _ (List.mem_of_mem_take hl'))
      · simp only [List.length_append, List.length_cons, List.length_nil, List.length_map,
          List.length_take] at hlinks ⊢
        omega
    · refine ⟨by simp [Descent.round], ?_⟩
      simp only [Descent.round]
      split <;> simp [hn]
  obtain ⟨p, hrun, hdescents, hle⟩ := hround
  have hlength := Descent.run_length hstop (Array.size s) hdescents
  refine Nat.le_trans (Slice.length_ofDescents _ _) ?_
  show 0 + (Descent.run s (seek depth) (Array.size s + 1)
    ⟨[⟨i, [], 0⟩], [], ()⟩).found.reverse.length ≤ n
  rw [hrun, List.length_reverse]
  omega

theorem run_nil {σ : Type} {visit : σ → Descent → σ × Descent.Verdict} (fuel : Nat)
    (found : List Descent) (notes : σ) :
    Descent.run s visit fuel ⟨[], found, notes⟩ = ⟨[], found, notes⟩ := by
  cases fuel <;> rfl

theorem run_here (i depth fuel : Nat) (ts : List Tree) :
    Descent.run s (seek depth) (fuel + 1) ⟨[⟨i, ts, depth⟩], [], ()⟩ =
      ⟨[], [⟨i, ts, depth⟩], ()⟩ :=
  Column.run_found true (by simp [seek]) (.inl rfl)

structure Tops (s : Stacks) (i : Nat) (f : Footing) (t : Tree) : Prop where
  footing : ∃ g, f = ((s.place i).state, t.extra) :: g
  stop : t.stop = (s.place i).mark

/-- A descent of a column comes to what lies so many parts down, if there is anything. The tree that
leads to the top is the last one on its way. -/
theorem StandsOn.run (h : s.StandsOn i f) (n depth fuel : Nat) (hfuel : f.length < fuel)
    (ts : List Tree) :
    (f.below (n + 1) = none ∧
      Descent.run s (seek (depth + (n + 1))) fuel ⟨[⟨i, ts, depth⟩], [], ()⟩ = ⟨[], [], ()⟩) ∨
    ∃ g j us t, f.below (n + 1) = some g ∧ s.StandsOn j g ∧ j < i ∧ s.Tops i f t ∧
      Descent.run s (seek (depth + (n + 1))) fuel ⟨[⟨i, ts, depth⟩], [], ()⟩ =
        ⟨[], [⟨j, us ++ t :: ts, depth + (n + 1)⟩], ()⟩ := by
  induction h generalizing n depth fuel ts with
  | @bottom i hstate hlinks =>
    obtain ⟨fuel, rfl⟩ : ∃ m, fuel = m + 1 := ⟨fuel - 1, by omega⟩
    refine .inl ⟨rfl, ?_⟩
    have hround : Descent.round s (seek (depth + (n + 1))) [⟨i, ts, depth⟩] [] [] [] () =
        ⟨[], [], ()⟩ := by
      simp [Descent.round, seek, hlinks]
    rw [Descent.run, if_neg (by simp), hround, run_nil]
  | @above i j t f hled h ih =>
    have hlt := hled.lt
    have htops : s.Tops i (((s.place i).state, t.extra) :: f) t := ⟨⟨_, rfl⟩, hled.mark.symm⟩
    rw [List.length_cons] at hfuel
    obtain ⟨fuel, rfl⟩ : ∃ m, fuel = m + 2 := ⟨fuel - 2, by omega⟩
    rw [Column.run_down (by simp [seek]) hled.links]
    cases hextra : t.extra with
    | true =>
      have hdown : Descent.down ⟨i, ts, depth⟩ ⟨j, some t⟩ = ⟨j, t :: ts, depth⟩ := by
        simp [Descent.down, hextra]
      rw [hdown]
      rcases ih n depth (fuel + 1) (by omega) (t :: ts) with
        ⟨hnone, hrun⟩ | ⟨g, b, us, t', hg, hb, hlt', -, hrun⟩
      · exact .inl ⟨hnone, hrun⟩
      · exact .inr ⟨g, b, us ++ [t'], t, hg, hb, by omega, hextra ▸ htops, by simpa using hrun⟩
    | false =>
      have hdown : Descent.down ⟨i, ts, depth⟩ ⟨j, some t⟩ = ⟨j, t :: ts, depth + 1⟩ := by
        simp [Descent.down, hextra]
      rw [hdown]
      cases n with
      | zero =>
        refine .inr ⟨f, j, [], t, by simp [Footing.below], h, hlt, hextra ▸ htops, ?_⟩
        exact run_here j (depth + 1) fuel (t :: ts)
      | succ n =>
        have hdepth : depth + (n + 1 + 1) = depth + 1 + (n + 1) := by omega
        rw [hdepth]
        rcases ih n (depth + 1) (fuel + 1) (by omega) (t :: ts) with
          ⟨hnone, hrun⟩ | ⟨g, b, us, t', hg, hb, hlt', -, hrun⟩
        · exact .inl ⟨hnone, hrun⟩
        · exact .inr ⟨g, b, us ++ [t'], t, hg, hb, by omega, hextra ▸ htops, by simpa using hrun⟩

/-- What lies above the place so many parts down a column. -/
theorem StandsOn.slices (h : s.StandsOn i f) (hi : i < s.size) (n : Nat) :
    (f.below (n + 1) = none ∧ s.slices i (n + 1) = []) ∨
    ∃ g j us t, f.below (n + 1) = some g ∧ s.StandsOn j g ∧ j < i ∧ s.Tops i f t ∧
      s.slices i (n + 1) = [⟨j, [us ++ [t]]⟩] := by
  have hlength := h.length_le
  have hslices : s.slices i (n + 1) = Slice.ofDescents (Descent.run s (seek (0 + (n + 1)))
      (Array.size s + 1) ⟨[⟨i, [], 0⟩], [], ()⟩).found.reverse [] := by
    rw [Nat.zero_add]
    rfl
  rw [hslices]
  rcases h.run n 0 (Array.size s + 1) (by omega) [] with
    ⟨hnone, hrun⟩ | ⟨g, j, us, t, hg, hj, hlt, htops, hrun⟩
  · exact .inl ⟨hnone, by rw [hrun]; rfl⟩
  · exact .inr ⟨g, j, us, t, hg, hj, hlt, htops, by rw [hrun]; rfl⟩

theorem slices_gap (hlinks : (s.place i).links = [⟨j, none⟩]) (hj : j < i) (hi : i < s.size)
    (h : s.StandsOn j f) (depth : Nat) :
    (∀ slice ∈ s.slices i depth, slice.place = i ∨ slice.place = j) ∨
    ∃ g b us t, g <:+ f ∧ s.StandsOn b g ∧ b < j ∧ s.Tops j f t ∧
      s.slices i depth = [⟨b, [us ++ [t]]⟩] := by
  have hlength := h.length_le
  have hslices : s.slices i depth = Slice.ofDescents (Descent.run s (seek depth)
      (Array.size s + 1) ⟨[⟨i, [], 0⟩], [], ()⟩).found.reverse [] := rfl
  obtain ⟨size, hsize⟩ : ∃ m, Array.size s = m + 1 := ⟨Array.size s - 1, by omega⟩
  cases depth with
  | zero =>
    refine .inl fun slice hmem => .inl ?_
    rw [hslices, run_here] at hmem
    obtain rfl := List.mem_singleton.mp hmem
    rfl
  | succ depth =>
    have hround : Descent.round s (seek (depth + 1)) [⟨i, [], 0⟩] [] [] [] () =
        ⟨[⟨j, [], 1⟩], [], ()⟩ := by
      simp [Descent.round, seek, hlinks, Descent.down]
    rw [Descent.run, if_neg (by simp), hround] at hslices
    cases depth with
    | zero =>
      refine .inl fun slice hmem => .inr ?_
      rw [hslices, hsize, run_here] at hmem
      obtain rfl := List.mem_singleton.mp hmem
      rfl
    | succ n =>
      rw [hslices, Nat.add_comm (n + 1) 1]
      rcases h.run n 1 (Array.size s) (by omega) [] with
        ⟨-, hrun⟩ | ⟨g, b, us, t, hg, hb, hlt, htops, hrun⟩
      · exact .inl (by rw [hrun]; simp [Slice.ofDescents])
      · exact .inr ⟨g, b, us, t, Footing.below_suffix hg, hb, hlt, htops, by rw [hrun]; rfl⟩

end Stacks

namespace Descent

variable {σ : Type} (s : Stacks) (visit : σ → Descent → σ × Verdict)

theorem round_append (ws kept added found : List Descent) (notes : σ) :
    ∃ ds fs, (round s visit ws kept added found notes).descents = kept.reverse ++ ds ∧
      (round s visit ws kept added found notes).found = fs ++ found := by
  induction ws generalizing kept added found notes with
  | nil => exact ⟨added.reverse, [], rfl, rfl⟩
  | cons w ws ih =>
    have hfound : ∃ fs, (if (visit notes w).2.found then w :: found else found) = fs ++ found := by
      split
      · exact ⟨[w], rfl⟩
      · exact ⟨[], rfl⟩
    obtain ⟨fs, hfs⟩ := hfound
    rw [round]
    dsimp only
    rw [hfs]
    split
    · rename_i l ls _ _
      obtain ⟨ds, fs', hds, hfs'⟩ := ih (w.down l :: kept)
        (((ls.take (limit - (kept.length + 1 + ws.length + added.length))).map w.down).reverse ++
          added) (fs ++ found) (visit notes w).1
      exact ⟨w.down l :: ds, fs' ++ fs, by simpa using hds, by simpa using hfs'⟩
    · obtain ⟨ds, fs', hds, hfs'⟩ := ih kept added (fs ++ found) (visit notes w).1
      exact ⟨ds, fs' ++ fs, hds, by simpa using hfs'⟩

theorem run_append (fuel : Nat) (p : Progress σ) :
    ∃ fs, (run s visit fuel p).found = fs ++ p.found := by
  induction fuel generalizing p with
  | zero => exact ⟨[], rfl⟩
  | succ fuel ih =>
    rw [run]
    split
    · exact ⟨[], rfl⟩
    · obtain ⟨fs, hfs⟩ := ih (round s visit p.descents [] [] p.found p.notes)
      obtain ⟨-, fs', -, hfs'⟩ := round_append s visit p.descents [] [] p.found p.notes
      exact ⟨fs ++ fs', by rw [hfs, hfs', List.append_assoc]⟩

end Descent

namespace Stacks

variable {s : Stacks} {i : Nat}

def seekBottom (s : Stacks) (_ : Unit) (w : Descent) : Unit × Descent.Verdict :=
  ((), ⟨(s.place w.place).links.isEmpty, false⟩)

theorem Rooted.run (h : s.Rooted i) (fuel : Nat) (hfuel : i < fuel) (w : Descent)
    (hw : w.place = i) (ws found : List Descent) :
    (Descent.run s s.seekBottom fuel ⟨w :: ws, found, ()⟩).found ≠ [] := by
  induction h generalizing fuel w ws found with
  | @bottom i hlinks =>
    obtain ⟨fuel, rfl⟩ : ∃ m, fuel = m + 1 := ⟨fuel - 1, by omega⟩
    subst hw
    obtain ⟨-, fs, -, hfs⟩ := Descent.round_append s s.seekBottom ws [] [] (w :: found) ()
    have hround : Descent.round s s.seekBottom (w :: ws) [] [] found () =
        Descent.round s s.seekBottom ws [] [] (w :: found) () := by
      simp [Descent.round, seekBottom, hlinks]
    rw [Descent.run, if_neg (by simp)]
    dsimp only
    rw [hround]
    obtain ⟨fs', hfs'⟩ := Descent.run_append s s.seekBottom fuel
      (Descent.round s s.seekBottom ws [] [] (w :: found) ())
    rw [hfs', hfs]
    simp
  | @above i l ls hlinks hlt _ ih =>
    obtain ⟨fuel, rfl⟩ : ∃ m, fuel = m + 1 := ⟨fuel - 1, by omega⟩
    subst hw
    have hdown : (w.down l).place = l.below := by
      unfold Descent.down
      split <;> rfl
    have hround : ∃ ds, (Descent.round s s.seekBottom (w :: ws) [] [] found ()).descents =
        w.down l :: ds := by
      rw [Descent.round]
      simp only [seekBottom, hlinks, List.isEmpty_cons, Bool.false_eq_true, if_false]
      obtain ⟨ds, -, hds, -⟩ := Descent.round_append s s.seekBottom ws
        [w.down l] _ found ()
      exact ⟨ds, hds⟩
    obtain ⟨ds, hds⟩ := hround
    rw [Descent.run, if_neg (by simp)]
    show (Descent.run s s.seekBottom fuel ⟨(Descent.round s s.seekBottom (w :: ws) [] [] found
      ()).descents, (Descent.round s s.seekBottom (w :: ws) [] [] found ()).found, ()⟩).found ≠ []
    rw [hds]
    exact ih fuel (by omega) (w.down l) hdown ds _

theorem Rooted.wholeWays (h : s.Rooted i) (hi : i < s.size) : s.wholeWays i ≠ [] := by
  have hfound := h.run (Array.size s + 1) (by omega) ⟨i, [], 0⟩ rfl [] []
  intro hnil
  have hmap : (Descent.run s s.seekBottom (Array.size s + 1)
      ⟨[⟨i, [], 0⟩], [], ()⟩).found.reverse.map (·.trees) = [] := hnil
  simp only [List.map_eq_nil_iff, List.reverse_eq_nil_iff] at hmap
  exact hfound hmap

end Stacks

end ImportGroups.Source
