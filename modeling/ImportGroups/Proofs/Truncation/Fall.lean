import ImportGroups.Proofs.Soundness.Rounds
import ImportGroups.Proofs.Truncation.Lineup

/-!
Versions that fall out of step.

A version that goes back adds no more versions than there are ways down from where it fell out of
step. If there are few enough versions then it is not given up for that, and at the end of the source it
finds a tree of the whole.
-/

namespace ImportGroups.Source

open Automaton (lost)
open Stacks (Level)

namespace Stacks

variable {s s' : Stacks} {i j k n : Nat} {f : Footing}

/-- No more than so many ways lead down from the place, and each is the only one further down. -/
structure Narrow (s : Stacks) (n i : Nat) : Prop where
  pos : 1 ≤ n
  rooted : s.Rooted i
  length : (s.place i).links.length ≤ n
  below : ∀ l ∈ (s.place i).links, s.Lone l.below

theorem Lone.narrow (h : s.Lone i) : s.Narrow 1 i := by
  refine ⟨Nat.le_refl 1, h.rooted, ?_, ?_⟩
  all_goals
    cases h with
    | bottom h => simp [h]
    | above h _ hlone => simp [h, hlone]

theorem Narrow.length_slices (h : s.Narrow n i) (depth : Nat) : (s.slices i depth).length ≤ n :=
  length_slices_le h.pos h.length h.below depth

/-- A footing does not lie on a place where the reader fell out of step. -/
theorem StandsOn.of_gap (h : s.StandsOn k f) (hgap : (s.place i).links = [⟨j, none⟩])
    (hs : ∀ k ≠ i, s'.place k = s.place k) : s'.StandsOn k f := by
  induction h with
  | @bottom k hstate hlinks =>
    have hk : k ≠ i := by
      rintro rfl
      simp [hgap] at hlinks
    exact .bottom (hs k hk ▸ hstate) (hs k hk ▸ hlinks)
  | @above k _ _ _ hled _ ih =>
    have hk : k ≠ i := by
      rintro rfl
      exact absurd (hgap.symm.trans hled.links) (by simp)
    rw [← hs k hk]
    exact .above (hled.congr (hs k hk)) ih

/-- Two places where the reader fell out of step, above different states, become one with two ways
down. -/
theorem join_gaps {o j' : Nat} (hi : i < s.size) (hlinks : (s.place i).links = [⟨j, none⟩])
    (hother : (s.place o).links = [⟨j', none⟩]) (hj' : j' ≠ i)
    (hstate : (s.place j).state ≠ (s.place j').state) :
    (s.join i o).size = s.size ∧ ((s.join i o).place i).links = [⟨j, none⟩, ⟨j', none⟩] ∧
      ∀ k ≠ i, (s.join i o).place k = s.place k := by
  obtain ⟨m, hm⟩ : ∃ m, Array.size s = m + 1 := ⟨Array.size s - 1, by omega⟩
  have hbelow : j ≠ j' := fun h => hstate (h ▸ rfl)
  have hcovering : s.coveringLink? [⟨j, none⟩] ⟨j', none⟩ = none := by
    simp [coveringLink?, joinable, hbelow, hstate]
  have hjoin : ∃ p, s.join i o = s.setIfInBounds i p ∧ p.links = [⟨j, none⟩, ⟨j', none⟩] := by
    unfold join
    dsimp only
    rw [hother, List.foldl_cons, List.foldl_nil, hm, addLink]
    dsimp only
    rw [if_neg (by simpa using hj'), hlinks, hcovering]
    exact ⟨_, if_neg (by simp [linkLimit]), rfl⟩
  obtain ⟨p, hjoin, hp⟩ := hjoin
  rw [hjoin]
  refine ⟨Array.size_setIfInBounds, ?_, fun k hk => ?_⟩
  · simp [place, hi, hp]
  · simp [place, hk.symm]

end Stacks

/-- A version with this footing finds no token that is missing at the end of the source, or can be read on
behind it; no other version is in a state that it comes to then. -/
def Footing.mends (avoid : List State) (f : Footing) : Bool :=
  match missing? .endOfFile f.state with
  | none => true
  | some t =>
    (settle avoid (versionLimit + 1) ((Automaton.afterSymbol f.state t, false) :: f)).isSome

/-- One version with this footing gets ready for the end of the source. -/
def Footing.endsAlone (f : Footing) : Bool :=
  match f.settle [] (versionLimit + 1) with
  | some g => g.mends [g.state]
  | none => false

/-- A version with this footing leaves it open whether a phrase ends before the end of the source. -/
def Footing.endsTwice (f : Footing) : Bool :=
  match takes f.state, formable f.state with
  | true, [r] =>
    match (f.form [] r).bind (settle [f.state] versionLimit) with
    | some g => f.state != g.state && (missing? .endOfFile f.state).isNone &&
        g.mends [lost, g.state]
    | none => false
  | _, _ => false

def Footing.ends (f : Footing) : Bool := f.endsAlone || f.endsTwice

namespace Contest

variable {c c' : Contest} {v n : Nat} {f g : Footing} {x : Stance}
  {fs : List Stance} {token : Tree}

/-- Nothing is read or found, and the versions that there are stay as they are. -/
structure Adjoins (c c' : Contest) : Prop extends Idle c c' where
  size : c.versions.size ≤ c'.versions.size
  version : ∀ u < c.versions.size, c'.version u = c.version u

theorem Adjoins.refl (c : Contest) : c.Adjoins c := ⟨.refl c, Nat.le_refl _, fun _ _ => rfl⟩

theorem Adjoins.trans {c'' : Contest} (h : c.Adjoins c') (h' : c'.Adjoins c'') : c.Adjoins c'' :=
  ⟨h.toIdle.trans h'.toIdle, Nat.le_trans h.size h'.size, fun u hu =>
    (h'.version u (Nat.lt_of_lt_of_le hu h.size)).trans (h.version u hu)⟩

theorem adjoins_addVersion (c : Contest) (x : Version) : c.Adjoins (c.addVersion x) := by
  refine ⟨⟨rfl, rfl, rfl, .refl _⟩, by simp [addVersion], fun u hu => ?_⟩
  simp [Contest.version, addVersion, Array.getElem?_push_lt hu, Array.getElem?_eq_getElem hu]

theorem version_push_of_ne {u : Nat} (h : u ≠ v) (tree? : Option Tree) (q : State) :
    (c.push v tree? q).version u = c.version u := by
  simp [Contest.version, Contest.push, h.symm]

namespace Adjoins

theorem push (h : c.Adjoins c') (hv : c.versions.size ≤ v) (tree? : Option Tree) (q : State) :
    c.Adjoins (c'.push v tree? q) := by
  refine ⟨⟨h.best, h.finished, h.latest, h.places.trans (Stacks.prolongs_push _ _)⟩, ?_, ?_⟩
  · rw [size_push]
    exact h.size
  · intro u hu
    rw [version_push_of_ne (by omega), h.version u hu]

theorem pushAll (h : c.Adjoins c') (hv : c.versions.size ≤ v) (ts : List Tree) (q : State) :
    c.Adjoins (c'.pushAll v ts q) := by
  induction ts generalizing c' with
  | nil => exact h
  | cons t ts ih => exact ih (h.push hv (some t) q)

theorem leaveOut (h : c.Adjoins c') (hv : c.versions.size ≤ v) (q : State) (here : Mark)
    (ts : List Tree) : c.Adjoins (c'.leaveOut v q here ts) := by
  unfold Contest.leaveOut
  refine pushAll ?_ hv _ q
  split
  · exact h
  · exact h.push hv _ q

end Adjoins

theorem goBackTo_adjoins (v : Nat) (q : State) (slices : List Slice) (c : Contest) :
    c.Adjoins (goBackTo v q slices c) ∧
      (goBackTo v q slices c).versions.size ≤ c.versions.size + slices.length ∧
      (c.versions.size < (goBackTo v q slices c).versions.size ∨ goBackTo v q slices c = c) := by
  induction slices generalizing c with
  | nil => exact ⟨.refl c, Nat.le_refl _, .inr rfl⟩
  | cons slice slices ih =>
    rw [goBackTo]
    dsimp only
    split
    · obtain ⟨hadjoins, hle, hcases⟩ := ih c
      exact ⟨hadjoins, Nat.le_trans hle (by simp), hcases⟩
    · let c₁ := (c.addVersion { top := (backTo c.places slice).1, settled := (c.version v).settled
        }).leaveOut c.versions.size q (c.places.place slice.place).mark (backTo c.places slice).2
      have hfirst : c.Adjoins c₁ := (adjoins_addVersion c _).leaveOut (Nat.le_refl _) q _ _
      have hsize : c₁.versions.size = c.versions.size + 1 := by
        rw [size_leaveOut]
        exact Array.size_push _
      obtain ⟨hadjoins, hle, -⟩ := ih c₁
      have hgrow := hadjoins.size
      refine ⟨hfirst.trans hadjoins, Nat.le_trans hle ?_, .inl ?_⟩
      · rw [hsize, List.length_cons]
        omega
      · exact Nat.lt_of_lt_of_le (by omega) hgrow

theorem goBack_adjoins (v : Nat) (token : Tree) (known : Nat) (levels : List Level) (c : Contest)
    (hslices : ∀ depth, (c.places.slices (c.version v).top depth).length ≤ n) :
    c.Adjoins (goBack v token known levels c) ∧
      (goBack v token known levels c).versions.size ≤ c.versions.size + n := by
  induction levels with
  | nil => exact ⟨.refl c, Nat.le_add_right _ _⟩
  | cons level levels ih =>
    rw [goBack]
    dsimp only
    split
    · exact ih
    · split
      · exact ⟨.refl c, Nat.le_add_right _ _⟩
      · split
        · generalize (if 0 < c.progress v then level.depth + 1 else level.depth) = depth
          obtain ⟨hadjoins, hle, hcases⟩ :=
            goBackTo_adjoins v level.state (c.places.slices (c.version v).top depth) c
          split
          · exact ⟨hadjoins, Nat.le_trans hle (Nat.add_le_add_left (hslices depth) _)⟩
          · rename_i hlt
            rw [hcases.resolve_left hlt]
            exact ih
        · exact ih

theorem foldl_offer_isSome (trees : List Tree) (c : Contest) (h : trees ≠ [] ∨ c.best?.isSome = true) :
    (trees.foldl offer c).best?.isSome = true := by
  induction trees generalizing c with
  | nil => exact h.resolve_left (fun h => h rfl)
  | cons t trees ih =>
    refine ih (c.offer t) (.inr ?_)
    unfold offer
    cases c.best? <;> rfl

theorem wholeTree_isSome (here : Mark) {trees : List Tree} {t : Tree} (ht : t ∈ trees)
    (hextra : t.extra = false) (hlabel : t.label ≠ .token .endOfFile) :
    (wholeTree here trees).isSome = true := by
  unfold wholeTree
  dsimp only
  split
  · rename_i hnil
    have hwhole := List.takeWhile_append_dropWhile
      (p := fun t : Tree => t.extra || t.label == .token .endOfFile) (l := trees.reverse)
    rw [hnil, List.append_nil] at hwhole
    have hall := List.all_takeWhile (p := fun t : Tree => t.extra || t.label == .token .endOfFile)
      (l := trees.reverse)
    rw [hwhole] at hall
    have hend := List.all_eq_true.mp hall t (List.mem_reverse.mpr ht)
    simp [hextra, hlabel] at hend
  · rfl

theorem mem_wholeWays {s : Stacks} {i j k : Nat} {e t : Tree}
    (hk : (s.place k).links = [⟨j, some t⟩]) (hj : (s.place j).links = [⟨i, some e⟩]) :
    ∀ way ∈ s.wholeWays k, e ∈ way := by
  intro way hway
  obtain ⟨w, hw, rfl⟩ := List.mem_map.mp hway
  have hfound := Descent.fromPlace_keeps ()
    (P := fun w => w.place = k ∨ w.place = j ∨ e ∈ w.trees) (.inl rfl) ?_ w hw
  · obtain ⟨hcases, _, hroot⟩ := hfound
    have hnil : (s.place w.place).links = [] := List.isEmpty_iff.mp hroot
    rcases hcases with h | h | h
    · simp [h, hk] at hnil
    · simp [h, hj] at hnil
    · exact h
  · rintro _ w hcases - l hl
    rcases hcases with h | h | h
    · rw [h, hk] at hl
      obtain rfl := List.mem_singleton.mp hl
      exact .inr (.inl rfl)
    · rw [h, hj] at hl
      obtain rfl := List.mem_singleton.mp hl
      exact .inr (.inr List.mem_cons_self)
    · refine .inr (.inr ?_)
      unfold Descent.down
      split
      · exact List.mem_cons_of_mem _ h
      · exact h

theorem giveUp_isSome {e : Tree} (hv : v < c.versions.size)
    (hlt : (c.version v).top < c.places.size) (hroot : c.places.Rooted (c.version v).top)
    (hextra : e.extra = false) (hlabel : e.label ≠ .token .endOfFile) :
    ((c.push v (some e) Automaton.initial).accept v token).best?.isSome = true := by
  have htop : ∀ (c : Contest) (t : Tree) (q : State), v < c.versions.size →
      ((c.push v (some t) q).version v).top = c.places.size := by
    intro c t q hv
    exact (version_of_head ((head?_push c v (some t) q v).trans (if_pos ⟨rfl, hv⟩))).2.1
  let c₁ := c.push v (some e) Automaton.initial
  let c₂ := c₁.push v (some token) Automaton.initial
  have hv₁ : v < c₁.versions.size := (size_push ..).symm ▸ hv
  have hsize : c₁.places.size = c.places.size + 1 := Array.size_push _
  have htop₁ : (c₁.version v).top = c.places.size := htop c e _ hv
  have hroot₁ : c₁.places.Rooted (c₁.version v).top := htop₁ ▸ hroot.push hlt (some e) _
  have hroot₂ : c₂.places.Rooted c₁.places.size := hroot₁.push (by omega) (some token) _
  have hlinks₂ : (c₂.places.place c₁.places.size).links = [⟨c.places.size, some token⟩] := by
    rw [place_push, htop₁]
    rfl
  have hlinks₁ : (c₂.places.place c.places.size).links = [⟨(c.version v).top, some e⟩] := by
    have hplace : c₂.places.place c.places.size = c₁.places.place c.places.size :=
      (Stacks.prolongs_push c₁.places _).place _ (by omega)
    rw [hplace, place_push]
    rfl
  have hlt₂ : c₁.places.size < c₂.places.size := by simp [c₂, Contest.push]
  obtain ⟨way, hway⟩ := List.exists_mem_of_ne_nil _ (hroot₂.wholeWays hlt₂)
  obtain ⟨tree, htree⟩ := Option.isSome_iff_exists.mp
    (wholeTree_isSome token.stop (mem_wholeWays hlinks₂ hlinks₁ way hway) hextra hlabel)
  have hne : (c₂.places.wholeWays (c₂.version v).top).filterMap (wholeTree token.stop) ≠ [] := by
    rw [htop c₁ token _ hv₁]
    exact List.ne_nil_of_mem (List.mem_filterMap.mpr ⟨way, hway, htree⟩)
  exact foldl_offer_isSome _ c₂ (.inl hne)

/-- The version goes on from a place with `n` ways down at most, and there is room for as many more
versions. -/
def Stuck (c : Contest) (v n : Nat) : Prop :=
  ∃ i, c.head? v = some (i, .active) ∧ i < c.places.size ∧ c.places.Narrow n i ∧
    c.versions.size + n ≤ versionLimit

theorem head?_settle (c : Contest) (v u : Nat) : (c.settle v).head? u = c.head? u :=
  head?_setVersion_of_head (x := { c.version v with
    settled := min (c.version v).settled (c.top v).shown }) rfl u

/-- A version that is out of step before the end of the source finds a tree of the whole. -/
theorem Stuck.recover (h : c.Stuck v n) (htoken : token.label = .token .endOfFile) :
    (c.recover v token).best?.isSome = true := by
  obtain ⟨i, hhead, hi, hnarrow, hroom⟩ := h
  have hsettled : (c.settle v).head? v = some (i, .active) := (head?_settle c v v).trans hhead
  have hsize : (c.settle v).versions.size = c.versions.size := size_setVersion ..
  rw [← hsize] at hroom
  unfold Contest.recover
  dsimp only
  have hplaces : (c.settle v).places = c.places := rfl
  rw [← hplaces] at hi hnarrow
  generalize c.settle v = c at hsettled hroom hi hnarrow ⊢
  obtain ⟨-, htop, -⟩ := version_of_head hsettled
  have hv := lt_size_of_head hsettled
  obtain ⟨hadjoins, hle⟩ := goBack_adjoins (n := n) v token c.versions.size
    ((c.version v).levels?.getD []) c (htop.symm ▸ hnarrow.length_slices)
  have herror : token.isError = false := by simp [Tree.isError, htoken]
  rw [herror, if_neg Bool.false_ne_true]
  have hversion := hadjoins.version v hv
  have hmore := hadjoins.size
  have hprolongs := hadjoins.places
  generalize goBack v token _ _ c = c' at *
  rw [if_neg (by simp; omega), if_pos (by simp [htoken])]
  have hroot : c'.places.Rooted (c'.version v).top := by
    rw [hversion, htop]
    exact hnarrow.rooted.prolongs hi hprolongs
  refine giveUp_isSome (by omega) ?_ hroot rfl (by intro hlabel; cases hlabel)
  rw [hversion, htop]
  exact Nat.lt_of_lt_of_le hi hprolongs.size

theorem Stuck.recover_levels {levels? : Option (List Level)} (h : c.Stuck v n)
    (htoken : token.label = .token .endOfFile) :
    ((c.setVersion v { c.version v with levels? }).recover v token).best?.isSome = true := by
  obtain ⟨i, hhead, hi, hnarrow, hroom⟩ := h
  refine Stuck.recover (n := n) ⟨i, ?_, hi, hnarrow, (size_setVersion ..).symm ▸ hroom⟩ htoken
  exact (head?_setVersion_of_head (x := { c.version v with levels? }) rfl v).trans hhead

theorem Stands.drop (h : c.Stands v (.on f)) : (c.push v none lost).Stands v (.off f) := by
  obtain ⟨i, hhead, hi, hon⟩ := h
  obtain ⟨-, htop, hstatus⟩ := version_of_head hhead
  have hplace : (c.push v none lost).places.place c.places.size = c.places.above i none lost := by
    rw [place_push, htop]
  have hprolongs : c.places.Prolongs (c.push v none lost).places := Stacks.prolongs_push _ _
  refine ⟨c.places.size, ?_, by simp [Contest.push], by rw [hplace]; rfl, i, by rw [hplace]; rfl, hi,
    by rw [hplace, hprolongs.place i hi]; rfl, Stacks.StandsOn.prolongs hon hi hprolongs⟩
  rw [head?_push, if_pos ⟨rfl, lt_size_of_head hhead⟩, hstatus]

theorem Stands.stuck (h : c.Stands v (.off f)) (hsize : c.versions.size + 1 ≤ versionLimit) :
    c.Stuck v 1 := by
  obtain ⟨i, hi, hlt, -, j, hlinks, hj, -, hon⟩ := h
  exact ⟨i, hi, hlt, (Stacks.Lone.above hlinks hj hon.lone).narrow, hsize⟩

theorem Lined.drop (h : c.Lined fs) (hf : fs[v]? = some (.on f)) :
    (c.push v none lost).Lined (fs.set v (.off f)) ∧ c.Idle (c.push v none lost) := by
  have hidle : c.Idle (c.push v none lost) := ⟨rfl, rfl, rfl, Stacks.prolongs_push _ _⟩
  refine ⟨⟨?_, fun u x hx => ?_⟩, hidle⟩
  · rw [size_push, h.size, List.length_set]
  · rw [List.getElem?_set] at hx
    split_ifs at hx with huv hlt
    · subst huv
      obtain rfl := Option.some_inj.mp hx
      exact (h.stands v (.on f) hf).drop
    · exact (h.stands u x hx).idle hidle (head?_push_of_ne (Ne.symm huv) _ _)

theorem Lined.mend (h : c.Lined fs) (hf : fs[v]? = some (.on f)) (hsize : fs.length ≤ 9)
    (hmends : f.mends (fs.map Stance.state) = true) :
    ∃ c' done more, c.putMissing v .endOfFile (Symbol.all.drop 1) = (c', done) ∧ c.Idle c' ∧
      c'.Lined (fs ++ more) ∧ more.length ≤ 1 := by
  have hstate : (c.top v).state = f.state := (h.stands v (.on f) hf).state
  unfold Footing.mends at hmends
  split at hmends
  · rename_i hnone
    exact ⟨c, false, [], putMissing_of_none (hstate.symm ▸ hnone), .refl c, by simpa using h,
      Nat.zero_le _⟩
  · rename_i t hsome
    obtain ⟨g, hg⟩ := Option.isSome_iff_exists.mp hmends
    obtain ⟨c', hput, hidle, hlined⟩ := h.putMissing hf hsize hsome hg
    exact ⟨c', true, [.on g], hput, hidle, hlined, Nat.le_refl _⟩

theorem fall_next {start first last fuel : Nat} {done : Bool} {next : Symbol} (hv : v < last)
    (htoken : token.symbol? = some next)
    (hput : c.putMissing v next (Symbol.all.drop 1) = (c', done)) :
    fall token start first last (fuel + 1) v false c =
      fall token start first last fuel (if v == start then first else v + 1) done
        (c'.push v none lost) := by
  rw [fall_succ, if_neg (by omega), htoken]
  dsimp only
  rw [hput]

theorem fall_end {start first last fuel : Nat} {done : Bool} (hv : last ≤ v) :
    fall token start first last fuel v done c = c := by
  cases fuel with
  | zero => rw [fall_zero]
  | succ fuel => rw [fall_succ, if_pos hv]

theorem Lined.fall_one (h : c.Lined [.on g]) (hg : g.mends [g.state] = true)
    (htoken : token.symbol? = some .endOfFile) :
    ∃ c' more, fall token 0 1 1 2 0 false c = c' ∧ c'.Lined (.off g :: more) ∧ more.length ≤ 1 := by
  obtain ⟨c', done, more, hput, -, hlined, hmore⟩ := h.mend (v := 0) rfl (by simp) hg
  obtain ⟨hlined', -⟩ := hlined.drop (v := 0) (f := g) rfl
  refine ⟨c'.push 0 none lost, more, ?_, hlined', hmore⟩
  rw [fall_next Nat.one_pos htoken hput]
  exact fall_end (Nat.le_refl 1)

/-- Two versions fall out of step at the end of the source, and only the second one finds a token that
can be missing. -/
theorem Lined.fall_two (h : c.Lined [.on f, .on g])
    (hf : Footing.missing? .endOfFile f.state = none) (hg : g.mends [lost, g.state] = true)
    (htoken : token.symbol? = some .endOfFile) :
    ∃ c' more, fall token 0 1 2 3 0 false c = c' ∧ c'.Lined (.off f :: .off g :: more) ∧
      more.length ≤ 1 := by
  have hstate : (c.top 0).state = f.state := (h.stands 0 _ rfl).state
  have hnone := putMissing_of_none (c := c) (v := 0) (hstate.symm ▸ hf)
  obtain ⟨hfirst, -⟩ := h.drop (v := 0) (f := f) rfl
  obtain ⟨c', done, more, hput, -, hlined, hmore⟩ :=
    hfirst.mend (v := 1) (f := g) rfl (by simp) hg
  obtain ⟨hlined', -⟩ := hlined.drop (v := 1) (f := g) rfl
  refine ⟨c'.push 1 none lost, more, ?_, hlined', hmore⟩
  rw [fall_next Nat.two_pos htoken hnone, beq_self_eq_true, if_pos rfl,
    fall_next Nat.one_lt_two htoken hput]
  exact fall_end (Nat.le_refl 2)

/-- Of two versions that fell out of step above different states the first finds a tree of the whole,
whether the second is merged into it or not. -/
theorem Lined.stuck (h : c.Lined (.off f :: .off g :: fs)) (hsize : fs.length ≤ 1)
    (hne : f.state ≠ g.state) : (c.mergeInto [0] 1).Stuck 0 2 := by
  have hversions : c.versions.size = fs.length + 2 := h.size
  obtain ⟨i, hhead, hi, hlost, j, hlinks, hj, -, hon⟩ := h.stands 0 _ rfl
  obtain ⟨i', hhead', hi', hlost', j', hlinks', hj', -, hon'⟩ := h.stands 1 _ rfl
  obtain ⟨-, htop, -⟩ := version_of_head hhead
  obtain ⟨-, htop', -⟩ := version_of_head hhead'
  have hlone := Stacks.Lone.above hlinks hj hon.lone
  unfold mergeInto
  split
  · rename_i v hpartner
    obtain rfl : v = 0 := List.mem_singleton.mp (List.mem_of_find?_eq_some hpartner)
    have hji : j' ≠ i := by
      rintro rfl
      cases hon' with
      | bottom _ hnil => exact absurd (hlinks.symm.trans hnil) (by simp)
      | above hled _ => exact absurd (hlinks.symm.trans hled.links) (by simp)
    have hplaces : (c.merge 0 1).places = c.places.join i i' := by
      unfold merge
      dsimp only
      rw [htop, htop']
    obtain ⟨hsame, hboth, hothers⟩ := Stacks.join_gaps hi hlinks hlinks' hji
      (by rwa [hon.state, hon'.state])
    rw [← hplaces] at hsame hboth hothers
    refine ⟨i, by rw [head?_merge, if_pos Nat.one_pos, hhead], hsame ▸ hi, ⟨by decide, ?_, ?_, ?_⟩, ?_⟩
    · exact .above hboth hj (hon.of_gap hlinks hothers).lone.rooted
    · rw [hboth]
      exact Nat.le_refl 2
    · rw [hboth]
      exact List.forall_mem_cons.mpr ⟨(hon.of_gap hlinks hothers).lone,
        List.forall_mem_singleton.mpr (hon'.of_gap hlinks hothers).lone⟩
    · have hfollows : Follows 1 c (c.merge 0 1) := by
        intro k
        rw [head?_merge, if_neg (by omega), Nat.add_right_comm]
      have hlt := size_of_follows hfollows (by omega)
      rw [versionLimit]
      omega
  · exact ⟨i, hhead, hi, ⟨by decide, hlone.rooted, by simp [hlinks], by simpa [hlinks] using hon.lone⟩,
      by rw [hversions, versionLimit]; omega⟩

/-- A version that falls out of step at the end of the source finds a tree of the whole. -/
theorem Lined.fallOut (h : c.Lined [.on f]) (hends : f.ends = true)
    (htoken : token.label = .token .endOfFile) : (c.fallOut 0 token).best?.isSome = true := by
  have hsymbol : token.symbol? = some .endOfFile := by simp [Tree.symbol?, htoken]
  have hsize : c.versions.size = 1 := h.size
  unfold Contest.fallOut
  dsimp only
  rw [hsize]
  rcases Bool.or_eq_true _ _ ▸ hends with hone | htwo
  · unfold Footing.endsAlone at hone
    split at hone
    · rename_i g hsettle
      obtain ⟨c₁, hprepare, -, hlined⟩ := h.prepare (v := 0) [] rfl (by simp)
        (by rintro u x hu hx; simp [hu] at hx) hsettle
      obtain ⟨c₂, more, hfall, hlined', hmore⟩ := hlined.fall_one hone hsymbol
      have hlast : c₁.versions.size = 1 := hlined.size
      rw [hprepare]
      dsimp only
      rw [hlast, hfall, Nat.sub_self, mergeTimes]
      have hstuck : c₂.Stuck 0 1 := by
        refine (hlined'.stands 0 _ rfl).stuck ?_
        rw [hlined'.size, List.length_cons, versionLimit]
        omega
      exact hstuck.recover_levels htoken
    · cases hone
  · unfold Footing.endsTwice at htwo
    split at htwo
    · rename_i r htakes hformable
      split at htwo
      · rename_i g hbind
        obtain ⟨g₀, hform, hsettle⟩ := Option.bind_eq_some_iff.mp hbind
        simp only [Bool.and_eq_true, bne_iff_ne, Option.isNone_iff_eq_none] at htwo
        obtain ⟨⟨hne, hmissing⟩, hmends⟩ := htwo
        obtain ⟨c₁, hprepare, -, hlined⟩ := h.prepare_branch htakes hformable hform hsettle
        obtain ⟨c₂, more, hfall, hlined', hmore⟩ := hlined.fall_two hmissing hmends hsymbol
        have hlast : c₁.versions.size = 2 := hlined.size
        rw [hprepare]
        dsimp only
        rw [hlast, hfall]
        exact (hlined'.stuck hmore hne).recover_levels htoken
      · cases htwo
    · cases htwo

end Contest

end ImportGroups.Source
