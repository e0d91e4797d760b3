import ImportGroups.Proofs.Truncation.Fall

/-!
A word that does not fit.

A version that falls out of step before a word goes back to a state below in which the word fits, if
there is one, and leaves out what lies above; or it skips the word. If there is a version that went back
then the other one may be given up, but one of the two is left.
-/

namespace ImportGroups.Source

open Automaton (lost)
open Stacks (Level)

namespace Stacks

variable {s : Stacks} {i j : Nat} {f g : Footing}

theorem StandsOn.find?_error (h : s.StandsOn i f) (hplain : ∀ x ∈ f, x.2 = false) :
    (s.place i).links.find? (fun l => l.tree?.any (·.isError)) = none := by
  cases h with
  | bottom _ hlinks => simp [hlinks]
  | @above _ _ t _ hled _ =>
    have hextra : t.extra = false := hplain _ List.mem_cons_self
    simp [hled.links, hled.plain hextra]

theorem Lone.slices (h : s.Lone i) (depth : Nat) :
    ∀ slice ∈ s.slices i depth, s.Lone slice.place ∧ slice.place ≤ i := by
  intro slice hslice
  have hdown : ∀ (w : Descent) (l : Link), (w.down l).place = l.below := by
    intro w l
    unfold Descent.down
    split <;> rfl
  have hkept : Descent.KeptDown s (seek depth) fun w => s.Lone w.place ∧ w.place ≤ i := by
    rintro _ w ⟨hlone, hle⟩ - l hl
    rw [hdown]
    cases hlone with
    | bottom hlinks => simp [hlinks] at hl
    | above hlinks hlt hbelow =>
      rw [hlinks] at hl
      obtain rfl := List.mem_singleton.mp hl
      exact ⟨hbelow, by omega⟩
  obtain ⟨hne, hways⟩ := Slice.ofDescents_keeps (P := fun place _ => s.Lone place ∧ place ≤ i)
    (fun w hw => (Descent.fromPlace_keeps () ⟨h, Nat.le_refl i⟩ hkept w hw).1) (by simp) slice hslice
  obtain ⟨way, hway⟩ := List.exists_mem_of_ne_nil _ hne
  exact hways way hway

end Stacks

/-- On a footing without extras a version can form no phrase, a word does not fit, and no token before it
can be missing. -/
structure Footing.Refuses (f : Footing) (w : Symbol) : Prop where
  plain : ∀ x ∈ f, x.2 = false
  inStep : f.state ≠ lost
  takes : takes f.state = true
  formable : formable f.state = []
  actions : Automaton.actions f.state w = []
  missing : missing? w f.state = none

namespace Contest

variable {c c' : Contest} {v : Nat} {f g : Footing} {token : Tree}

/-- A new version has gone back to where the token fits. What it left out reaches to where `v` is. -/
structure WentBack (token : Tree) (f : Footing) (v : Nat) (c c' : Contest) : Prop
    extends Adjoins c c' where
  one : c'.versions.size = c.versions.size + 1
  stands : ∃ g : Footing, g <:+ f ∧ token.fits g.state = true ∧
    c'.Stands c.versions.size (.on ((g.state, true) :: g))
  mark : (c'.top c.versions.size).mark = (c.top v).mark

theorem goBackTo_of_ne {q : State} {slices : List Slice}
    (h : ∀ slice ∈ slices, (c.places.place slice.place).state ≠ q) : goBackTo v q slices c = c := by
  induction slices with
  | nil => rfl
  | cons slice slices ih =>
    obtain ⟨hslice, hrest⟩ := List.forall_mem_cons.mp h
    rw [goBackTo]
    dsimp only
    rw [if_pos (by simpa using hslice)]
    exact ih hrest

theorem goBackTo_off {q : State} (h : c.Stands v (.off f)) (hplain : ∀ x ∈ f, x.2 = false)
    (hlost : q ≠ lost) (hq : q ≠ f.state) (hfits : token.fits q = true) (depth : Nat) :
    goBackTo v q (c.places.slices (c.version v).top depth) c = c ∨
      WentBack token f v c (goBackTo v q (c.places.slices (c.version v).top depth) c) := by
  obtain ⟨i, hhead, hi, hstate, j, hlinks, hj, hmark, hon⟩ := h
  obtain ⟨-, htop, -⟩ := version_of_head hhead
  have hadjoins := (goBackTo_adjoins v q (c.places.slices (c.version v).top depth) c).1
  have hhere : (c.top v).mark = (c.places.place j).mark := by
    rw [Contest.top, htop, hmark]
  rw [htop] at hadjoins ⊢
  rcases Stacks.slices_gap hlinks hj hi hon depth with hnear | ⟨g, b, us, t, hg, hb, hlt, htops, hslices⟩
  · -- the token fits neither where the version is nor right below
    refine .inl (goBackTo_of_ne fun slice hmem => ?_)
    rcases hnear slice hmem with hplace | hplace <;> rw [hplace]
    · rw [hstate]
      exact hlost.symm
    · rw [hon.state]
      exact hq.symm
  · rw [hslices] at hadjoins ⊢
    by_cases hstate : (c.places.place b).state = q
    · obtain ⟨f', hf'⟩ := htops.footing
      have hextra : t.extra = false := hplain _ (hf' ▸ List.mem_cons_self)
      have hsplit := splitExtras_concat us hextra
      let x : Version := { top := b, settled := (c.version v).settled }
      let left := { Tree.node .error (us ++ [t]) (c.places.place b).mark with extra := true }
      have hnew : goBackTo v q [⟨b, [us ++ [t]]⟩] c = c.spawn x left q := by
        have hback : backTo c.places ⟨b, [us ++ [t]]⟩ = (b, us ++ [t]) := by
          unfold backTo
          rw [hb.find?_error fun x hx => hplain x (hg.subset hx)]
          rfl
        have hleave : (c.addVersion x).leaveOut c.versions.size q (c.places.place b).mark (us ++ [t]) =
            c.spawn x left q := by
          simp [leaveOut, hsplit, pushAll, spawn, left]
        rw [goBackTo]
        dsimp only
        rw [if_neg (by simp [hstate])]
        show (c.addVersion { top := (backTo c.places ⟨b, [us ++ [t]]⟩).1
                             settled := (c.version v).settled }).leaveOut c.versions.size q
          (c.places.place b).mark (backTo c.places ⟨b, [us ++ [t]]⟩).2 = _
        rw [hback, hleave]
      have hgq : Footing.state g = q := hb.state.symm.trans hstate
      rw [hnew] at hadjoins ⊢
      obtain ⟨hstands, hmark⟩ := stands_spawn (x := x) (t := left) (q := q) rfl
        (by show b < _; omega) hb (by intro hextra; cases hextra)
      refine .inr ⟨hadjoins, size_spawn .., ⟨g, hg, hgq.symm ▸ hfits, hgq.symm ▸ hstands⟩, ?_⟩
      rw [hmark, hhere, ← htops.stop]
      simp [left, Tree.node]
    · refine .inl (goBackTo_of_ne ?_)
      exact List.forall_mem_singleton.mpr hstate

theorem goBack_off (h : c.Stands v (.off f)) (hplain : ∀ x ∈ f, x.2 = false)
    (hfit : token.fits f.state = false) (known : Nat) (levels : List Level) :
    goBack v token known levels c = c ∨ WentBack token f v c (goBack v token known levels c) := by
  induction levels with
  | nil => exact .inl rfl
  | cons level levels ih =>
    rw [goBack]
    dsimp only
    split
    · exact ih
    · rename_i hlevel
      split
      · exact .inl rfl
      · split
        · rename_i hfits
          have hlost : level.state ≠ lost := by
            intro hlost
            simp [hlost] at hlevel
          have hq : level.state ≠ f.state := by
            intro hq
            rw [hq, hfit] at hfits
            cases hfits
          generalize (if 0 < c.progress v then level.depth + 1 else level.depth) = depth
          rcases goBackTo_off h hplain hlost hq hfits depth with hsame | hback
          · rw [hsame, if_neg (Nat.lt_irrefl _)]
            exact ih
          · rw [if_pos (by rw [hback.one]; omega)]
            exact .inr hback
        · exact ih

/-- The version is out of step at the mark, and there is one way down from where it is. -/
def Astray (c : Contest) (v : Nat) (m : Mark) : Prop :=
  ∃ i, c.head? v = some (i, .active) ∧ i < c.places.size ∧ c.places.Lone i ∧
    (c.places.place i).state = lost ∧ (c.places.place i).mark = m

theorem astray_push {i : Nat} (hhead : c.head? v = some (i, .active)) (hi : i < c.places.size)
    (hlone : c.places.Lone i) (t : Tree) : (c.push v (some t) lost).Astray v t.stop := by
  obtain ⟨-, htop, hstatus⟩ := version_of_head hhead
  have hplace := place_push c v (some t) lost
  refine ⟨c.places.size, ?_, by simp [Contest.push], ?_, by rw [hplace]; rfl, by rw [hplace]; rfl⟩
  · rw [head?_push, if_pos ⟨rfl, lt_size_of_head hhead⟩, hstatus]
  · have hpush := hlone.push hi (some t) lost
    rw [← htop] at hpush
    exact hpush

theorem skip_astray {i : Nat} (hhead : c.head? v = some (i, .active)) (hi : i < c.places.size)
    (hlone : c.places.Lone i) (token : Tree) :
    (c.skip v token).Astray v token.stop ∧ c.Idle (c.skip v token) := by
  obtain ⟨-, htop, hstatus⟩ := version_of_head hhead
  have hv := lt_size_of_head hhead
  unfold skip
  dsimp only
  split
  · rename_i slice slices _ hslices
    obtain ⟨hslice, hle⟩ := hlone.slices 1 slice (by rw [← htop, hslices]; exact List.mem_cons_self)
    have hmoved : (c.setVersion v { c.version v with top := slice.place }).head? v =
        some (slice.place, .active) := by
      rw [head?_setVersion, if_pos ⟨rfl, hv⟩, ← hstatus]
      rfl
    let whole := Tree.node .skipped (slice.ways.headD [] ++ [.node .skipped [token] (c.top v).mark])
      (c.top v).mark
    have hstop : whole.stop = token.stop := by simp [whole, Tree.node]
    have hastray := astray_push hmoved (by show slice.place < c.places.size; omega) hslice whole
    rw [hstop] at hastray
    exact ⟨hastray, ⟨rfl, rfl, rfl, Stacks.prolongs_push _ _⟩⟩
  · have hastray := astray_push hhead hi hlone (.node .skipped [token] (c.top v).mark)
    exact ⟨hastray, ⟨rfl, rfl, rfl, Stacks.prolongs_push _ _⟩⟩

theorem head?_of_lt (hv : v < c.versions.size) : c.head? v = some (c.version v).head := by
  rw [head?, version, Array.getElem?_eq_getElem hv]
  rfl

theorem Adjoins.head? (h : c.Adjoins c') (hv : v < c.versions.size) : c'.head? v = c.head? v := by
  rw [head?_of_lt hv, head?_of_lt (Nat.lt_of_lt_of_le hv h.size), h.version v hv]

/-- A version has met a word that does not fit: it has skipped it, or it was given up for one that has
gone back to where the word fits. -/
structure Parted (token : Tree) (f : Footing) (m : Mark) (c' : Contest) : Prop where
  size : c'.versions.size ≤ 2
  cases : c'.Astray 0 token.stop ∨ (∃ i, c'.head? 0 = some (i, .halted)) ∧
    c'.versions.size = 2 ∧ (c'.top 1).mark = m ∧ ∃ g : Footing, g <:+ f ∧
      token.fits g.state = true ∧ c'.Stands 1 (.on ((g.state, true) :: g))

theorem isBeaten_of_one (hsize : c.versions.size = 1) (hbest : c.best? = none) (cost : Nat) :
    c.isBeaten 0 cost = false := by
  simp [isBeaten, hbest, hsize]

theorem recover_word (h : c.Lined [.off f]) (hplain : ∀ x ∈ f, x.2 = false)
    (hfit : token.fits f.state = false) (herror : token.isError = false)
    (hend : token.label ≠ .token .endOfFile) (hbest : c.best? = none) :
    c.Idle (c.recover 0 token) ∧ Parted token f (c.top 0).mark (c.recover 0 token) := by
  have hidle : c.Idle (c.settle 0) := ⟨rfl, rfl, rfl, .refl _⟩
  have hsettled : (c.settle 0).Lined [.off f] := by
    refine ⟨(size_setVersion ..).trans h.size, fun v x hx => ?_⟩
    exact (h.stands v x hx).idle hidle (head?_settle c 0 v)
  have hmark : ((c.settle 0).top 0).mark = (c.top 0).mark := by
    rw [Contest.top, version_top_of_head (head?_settle c 0 0)]
    rfl
  unfold recover
  dsimp only
  rw [← hmark]
  have hbest : (c.settle 0).best? = none := hbest
  generalize c.settle 0 = c₀ at *
  have hsize : c₀.versions.size = 1 := hsettled.size
  rw [herror, if_neg Bool.false_ne_true, hsize]
  have hstands : c₀.Stands 0 (.off f) := hsettled.stands 0 _ rfl
  have hgone := goBack_off hstands hplain hfit 1 ((c₀.version 0).levels?.getD [])
  obtain ⟨i, hhead, hi, -, j, hlinks, hj, -, hon⟩ := hstands
  have hlone := Stacks.Lone.above hlinks hj hon.lone
  rcases hgone with hsame | hback
  · rw [hsame, hsize, if_neg (by decide), if_neg (by simpa using hend),
      isBeaten_of_one hsize hbest, if_neg Bool.false_ne_true]
    obtain ⟨hastray, hskip⟩ := skip_astray hhead hi hlone token
    exact ⟨hidle.trans hskip, by rw [size_skip, hsize]; decide, .inl hastray⟩
  · obtain ⟨g, hg, hfits, hnew⟩ := hback.stands
    have hone := hback.one
    have hmark := hback.mark
    have hbacked := hback.toAdjoins
    rw [hsize] at hone hnew hmark
    generalize goBack 0 token 1 ((c₀.version 0).levels?.getD []) c₀ = c' at *
    have hhead' : c'.head? 0 = some (i, .active) := (hbacked.head? (by omega)).trans hhead
    rw [hone, if_neg (by decide), if_neg (by simpa using hend)]
    split
    · have hhalted : c'.Idle (c'.setStatus 0 .halted) := ⟨rfl, rfl, rfl, .refl _⟩
      have hother : (c'.setStatus 0 .halted).head? 1 = c'.head? 1 := by
        rw [setStatus, head?_setVersion, if_neg (by omega)]
      refine ⟨(hidle.trans hbacked.toIdle).trans hhalted, ?_, .inr ⟨⟨i, ?_⟩, ?_, ?_, g, hg, hfits, ?_⟩⟩
      · exact Nat.le_of_eq (by rw [setStatus, size_setVersion, hone])
      · rw [setStatus, head?_setVersion, if_pos ⟨rfl, by omega⟩, ← (version_of_head hhead').2.1]
        rfl
      · rw [setStatus, size_setVersion, hone]
      · rw [Contest.top, version_top_of_head hother]
        exact hmark
      · exact hnew.idle hhalted hother
    · obtain ⟨hastray, hskip⟩ := skip_astray hhead' (Nat.lt_of_lt_of_le hi hbacked.places.size)
        (hlone.prolongs hi hbacked.places) token
      exact ⟨(hidle.trans hbacked.toIdle).trans hskip, Nat.le_of_eq (by rw [size_skip, hone]), .inl hastray⟩

/-- A version that can take a token and can form no phrase falls out of step where it is. -/
theorem prepare_rest (h : c.Lined [.on f]) (htakes : Footing.takes f.state = true)
    (hformable : Footing.formable f.state = []) : c.prepare 0 none = (c, true) := by
  have hstate : (c.top 0).state = f.state := (h.stands 0 _ rfl).state
  have hsize : c.versions.size = 1 := h.size
  have hlimit : turnLimit = turnLimit - 1 + 1 := rfl
  rw [Contest.prepare, hlimit, formPhrases]
  dsimp only
  rw [if_neg (by omega), hstate, hsize]
  rw [show (rulesOf _).foldl addRule [] = [] from hformable, show takesToken _ = true from htakes,
    List.foldl_nil]
  exact formPhrases_end (by rw [hsize]; decide)

theorem fallOut_word {w : Symbol} (h : c.Lined [.on f]) (hrefuses : f.Refuses w)
    (hword : token.label = .token w) (hend : w ≠ .endOfFile) (hbest : c.best? = none) :
    c.Idle (c.fallOut 0 token) ∧ Parted token f (c.top 0).mark (c.fallOut 0 token) := by
  have hsymbol : token.symbol? = some w := by simp [Tree.symbol?, hword]
  have hsize : c.versions.size = 1 := h.size
  have hstate : (c.top 0).state = f.state := (h.stands 0 _ rfl).state
  have hput := putMissing_of_none (c := c) (v := 0) (hstate.symm ▸ hrefuses.missing)
  have hfall : fall token 0 1 1 2 0 false c = c.push 0 none lost := by
    rw [fall_next Nat.one_pos hsymbol hput]
    exact fall_end (Nat.le_refl 1)
  obtain ⟨hlined, hidle⟩ := h.drop (v := 0) (f := f) rfl
  unfold fallOut
  dsimp only
  rw [prepare_rest h hrefuses.takes hrefuses.formable]
  dsimp only
  rw [hsize, hfall, Nat.sub_self, mergeTimes]
  have hmark : ((c.push 0 none lost).top 0).mark = (c.top 0).mark := by
    have hhead := head?_push c 0 none lost 0
    rw [if_pos ⟨rfl, by omega⟩] at hhead
    rw [Contest.top, (version_of_head hhead).2.1, place_push]
    rfl
  generalize c.push 0 none lost = c₁ at *
  let x : Version := { c₁.version 0 with levels? := some (c₁.places.levels (c₁.version 0).top) }
  have hlevels : c₁.Idle (c₁.setVersion 0 x) := ⟨rfl, rfl, rfl, .refl _⟩
  have hheads : ∀ v, (c₁.setVersion 0 x).head? v = c₁.head? v := head?_setVersion_of_head rfl
  have hlined' : (c₁.setVersion 0 x).Lined [.off f] :=
    ⟨(size_setVersion ..).trans hlined.size, fun v y hy =>
      (hlined.stands v y hy).idle hlevels (hheads v)⟩
  have hmark' : ((c₁.setVersion 0 x).top 0).mark = (c.top 0).mark := by
    rw [Contest.top, version_top_of_head (hheads 0), ← hmark]
    rfl
  rw [← hmark']
  have hunfit : token.fits f.state = false := by
    simp [Tree.fits, hsymbol, Automaton.admits, hrefuses.actions]
  obtain ⟨hrecover, hparted⟩ := recover_word hlined' hrefuses.plain hunfit (by simp [Tree.isError, hword])
    (by simp [hword, hend]) (hlevels.best.trans (hidle.best.trans hbest))
  exact ⟨(hidle.trans hlevels).trans hrecover, hparted⟩

end Contest

end ImportGroups.Source
