import ImportGroups.Proofs.Soundness.Forming

/-!
Getting back into step.

What is left out lies between the place that a version goes back to and the place where it was, so it
can stand there as an error. A version that has read the whole source gives a tree of all that lies on
its stack; the root of that tree is a source file or an error.
-/

namespace ImportGroups.Source

open Text (Bytes)
open Automaton (lost rulesBefore after HoldsSpecs)

structure LeftOut (src : Bytes) (q : State) (a : Nat) (trees : List Tree) : Prop where
  sound : ∀ t ∈ trees, t.Sound src
  between : ∃ e, Tree.Between trees a e
  specs : ∀ t ∈ trees, t.Specless ∨ HoldsSpecs q

theorem Way.leftOut {L : Law} {b s : Stand} {ts : List Tree} {n : Nat} (h : Way L b ts n s) :
    LeftOut L.src b.state b.offset ts :=
  ⟨h.sound, ⟨_, h.between⟩, h.specs⟩

namespace LeftOut

variable {src : Bytes} {q : State} {a : Nat} {trees : List Tree}

theorem parts (h : LeftOut src q a trees) : LeftOut src q a (splitExtras trees).1 := by
  have hsplit := splitExtras_append trees
  generalize (splitExtras trees).1 = left at *
  generalize (splitExtras trees).2 = extras at *
  subst hsplit
  obtain ⟨e, hbetween⟩ := h.between
  exact ⟨fun t ht => h.sound t (List.mem_append_left _ ht), ⟨_, hbetween.of_append.1⟩,
    fun t ht => h.specs t (List.mem_append_left _ ht)⟩

theorem spans {label : Label} {here : Mark} {s : State} (h : LeftOut src q a trees)
    (hhere : here.On src) (hne : trees ≠ []) (hlabel : label = .error ∨ label = .skipped) :
    Spans src ⟨q, a⟩ ⟨s, (Tree.node label trees here).stop.offset⟩ (.node label trees here) := by
  obtain ⟨e, hbetween⟩ := h.between
  have hshaped : (Tree.node label trees here).Shaped src := by
    rcases hlabel with rfl | rfl <;> exact trivial
  refine ⟨Tree.sound_node hhere h.sound hbetween hshaped, ?_, rfl, ?_, nofun⟩
  · cases trees with
    | nil => exact absurd rfl hne
    | cons t trees => exact hbetween.1
  · by_cases hq : HoldsSpecs q
    · exact .inr hq
    · refine .inl (.intro ?_ fun t ht => (h.specs t ht).resolve_right hq)
      rcases hlabel with rfl | rfl <;> exact nofun

theorem spans_extra {here : Mark} {s : State} (h : LeftOut src q a trees) (hhere : here.On src)
    (hne : trees ≠ []) (hlast : ∀ t ∈ trees.getLast?, t.extra = false) :
    Spans src ⟨q, a⟩ ⟨s, (Tree.node .error trees here).stop.offset⟩
      { Tree.node .error trees here with extra := true } := by
  have hspans := h.spans (s := s) hhere hne (.inl rfl)
  have halike : (Tree.node .error trees here).Alike
      { Tree.node .error trees here with extra := true } := ⟨rfl, rfl, rfl, rfl, rfl, rfl⟩
  refine ⟨halike.sound hspans.sound, hspans.start, rfl, hspans.specs.imp_left halike.specless, ?_⟩
  intro _ _
  have hsome := List.getLast?_eq_some_getLast hne
  refine ⟨trees.getLast hne, hsome, hlast _ hsome, ?_⟩
  simp [Tree.node, hsome]

end LeftOut

/-- What a version puts onto its stack for trees between two offsets that it leaves out: an error,
and behind it the extras at their end. -/
structure Leaves (L : Law) (q : State) (a e : Nat) (trees : List Tree) : Prop where
  error : ∀ here : Mark, here.On L.src → (splitExtras trees).1 ≠ [] →
    Rung L ⟨q, a⟩ ⟨q, (Tree.node .error (splitExtras trees).1 here).stop.offset⟩
      { Tree.node .error (splitExtras trees).1 here with extra := true }
  extras : Way L ⟨q, ((splitExtras trees).1.getLast?.map (·.stop.offset)).getD a⟩
    (splitExtras trees).2 0 ⟨q, e⟩

namespace Way

variable {L : Law} {b s : Stand} {t : Tree} {ts : List Tree} {n : Nat}

theorem head_keeps (h : Way L b (t :: ts) n s) : ∃ q, L.keeps ⟨q, b.offset⟩ t := by
  generalize hall : t :: ts = all at h
  induction h with
  | nil => cases hall
  | extra hrung =>
    obtain ⟨rfl, -⟩ := List.cons_eq_cons.mp hall
    exact ⟨_, hrung.keeps⟩
  | part hrung =>
    obtain ⟨rfl, -⟩ := List.cons_eq_cons.mp hall
    exact ⟨_, hrung.keeps⟩
  | gap _ ih => exact ih hall

theorem trailing [L.Stable] {q : State} (h : Way L b ts n s)
    (hspecs : ∀ t ∈ ts, t.Specless ∨ HoldsSpecs q) :
    Way L ⟨q, ((splitExtras ts).1.getLast?.map (·.stop.offset)).getD b.offset⟩
      (splitExtras ts).2 0 ⟨q, s.offset⟩ := by
  have hsplit := splitExtras_append ts
  have hextra := splitExtras_extra ts
  generalize (splitExtras ts).1 = left at *
  generalize (splitExtras ts).2 = extras at *
  subst hsplit
  obtain ⟨m, i, j, hleft, hextras, -⟩ := h.of_append
  rw [hleft.stop]
  exact hextras.onto hextra fun t ht => hspecs t (List.mem_append_right _ ht)

theorem leaves [L.Stable] (h : Way L b ts n s) : Leaves L b.state b.offset s.offset ts := by
  refine ⟨fun here hhere hne => ⟨?_, ?_⟩, h.trailing h.specs⟩
  · exact h.leftOut.parts.spans_extra hhere hne (splitExtras_last ts)
  · have hsplit := splitExtras_append ts
    cases hleft : (splitExtras ts).1 with
    | nil => exact absurd hleft hne
    | cons t left =>
      rw [hleft] at hsplit
      have hway : Way L b (t :: (left ++ _)) n s := hsplit ▸ h
      obtain ⟨q, hkeeps⟩ := hway.head_keeps
      refine Law.Stable.leftOut left here hkeeps fun u hu => hway.keeps u ?_
      exact List.mem_cons_of_mem t (List.mem_append_left _ hu)

end Way

/-- Extras at the end of trees that come behind something that is none. -/
theorem splitExtras_append_left {us ts : List Tree} {t : Tree} (ht : us.getLast? = some t)
    (hextra : t.extra = false) :
    splitExtras (us ++ ts) = (us ++ (splitExtras ts).1, (splitExtras ts).2) := by
  obtain ⟨us, rfl⟩ := List.getLast?_eq_some_iff.mp ht
  have htake : ((us ++ [t] ++ ts).reverse.takeWhile (·.extra)).reverse =
      (ts.reverse.takeWhile (·.extra)).reverse := by
    rw [List.reverse_append, List.reverse_append, List.takeWhile_append]
    split_ifs with hall
    · rw [List.reverse_singleton, List.singleton_append, List.takeWhile_cons_of_neg (by simp [hextra])]
      simp [(List.takeWhile_prefix _).eq_of_length hall]
    · rfl
  have hle := (List.takeWhile_sublist (l := ts.reverse) (·.extra)).length_le
  rw [List.length_reverse] at hle
  unfold splitExtras
  dsimp only
  rw [htake, List.length_append, List.length_reverse, Nat.add_sub_assoc hle, List.take_length_add_append]

theorem leftOut_token {src : Bytes} {q : State} {a : Nat} {token : Tree} (ht : token.IsToken src a) :
    LeftOut src q a [token] :=
  ⟨by simpa using ht.sound, ⟨_, ht.behind, ht.sound.le, Nat.le_refl _⟩, by simp [ht.specless]⟩

theorem rung_skipped {L : Law} [L.Stable] {q s : State} {a : Nat} {token : Tree} {here : Mark}
    (ht : token.IsToken L.src a) (ha : L.front ≤ a) (hhere : here.On L.src) :
    Rung L ⟨q, a⟩ ⟨s, (Tree.node .skipped [token] here).stop.offset⟩ (.node .skipped [token] here) :=
  ⟨(leftOut_token ht).spans hhere (by simp) (.inr rfl),
    Law.Stable.skipped (q := q) [] here (Law.Stable.token ha ht) (List.forall_mem_nil _)⟩

theorem Way.rung_skipped {L : Law} [L.Stable] {b s : Stand} {ts : List Tree} {n : Nat} {q : State} {t : Tree}
    {here : Mark} (h : Way L b ts n s) (ht : Rung L ⟨b.state, s.offset⟩ ⟨q, t.stop.offset⟩ t)
    (hspecless : t.Specless) (hhere : here.On L.src) :
    Rung L b ⟨q, (Tree.node .skipped (ts ++ [t]) here).stop.offset⟩
      (.node .skipped (ts ++ [t]) here) := by
  have hlast : Tree.Between [t] s.offset t.stop.offset := ⟨ht.start, ht.sound.le, Nat.le_refl _⟩
  have hleft : LeftOut L.src b.state b.offset (ts ++ [t]) := by
    refine ⟨fun t' ht' => ?_, ⟨_, h.between.append hlast⟩, fun t' ht' => ?_⟩
    · exact (List.mem_append.mp ht').elim (h.sound t') fun ht' =>
        List.mem_singleton.mp ht' ▸ ht.sound
    · exact (List.mem_append.mp ht').elim (h.specs t') fun ht' =>
        .inl (List.mem_singleton.mp ht' ▸ hspecless)
  refine ⟨hleft.spans hhere (by simp) (.inr rfl), ?_⟩
  cases ts with
  | nil =>
    have hoffset : b.offset = s.offset := h.stop
    refine Law.Stable.skipped (q := b.state) [] here ?_ (List.forall_mem_nil _)
    rw [hoffset]
    exact ht.keeps
  | cons t' ts =>
    obtain ⟨q', hkeeps⟩ := h.head_keeps
    refine Law.Stable.skipped (ts ++ [t]) here hkeeps fun u hu => ?_
    rcases List.mem_append.mp hu with hu | hu
    · exact h.keeps u (List.mem_cons_of_mem t' hu)
    · exact ⟨_, List.mem_singleton.mp hu ▸ ht.keeps⟩

namespace Contest

variable {L : Law} {c c' : Contest} {n v w a : Nat}

/-- The version `w` has gone back, and what it has left out is put onto its stack. -/
def leaveOut (c : Contest) (w : Nat) (q : State) (here : Mark) (trees : List Tree) : Contest :=
  (if (splitExtras trees).1.isEmpty then c
    else c.push w (some { Tree.node .error (splitExtras trees).1 here with extra := true }) q).pushAll
      w (splitExtras trees).2 q

theorem size_leaveOut (c : Contest) (w : Nat) (q : State) (here : Mark) (trees : List Tree) :
    (c.leaveOut w q here trees).versions.size = c.versions.size := by
  unfold leaveOut
  rw [size_pushAll]
  split_ifs
  · rfl
  · rw [size_push]

theorem leaveOut_extends {q : State} {e : Nat} {trees : List Tree} (here : Mark) (h : c.Sound L)
    (hw : c.IsAt w a) (hstate : (c.top w).state = q) (hhere : here.On L.src)
    (htrees : Leaves L q a e trees) :
    c.Extends L w (c.leaveOut w q here trees) ∧ (c.leaveOut w q here trees).IsAt w e := by
  obtain ⟨herror, hextras⟩ := htrees
  have herror := herror here hhere
  unfold leaveOut
  generalize (splitExtras trees).1 = left at *
  generalize (splitExtras trees).2 = extras at *
  have hstand : (c.top w).stand = ⟨q, a⟩ := by
    rw [← hstate, ← hw.offset]
    rfl
  cases left with
  | nil => exact h.pushAll hw hstate hextras
  | cons t left =>
    have hrung := herror (by simp)
    have hpush : c.Extends L w (c.push w
        (some { Tree.node .error (t :: left) here with extra := true }) q) := by
      refine h.push hw ?_ ?_ <;> rw [hstand]
      · exact hrung.toSpans
      · exact ⟨.inr ⟨rfl, rfl⟩, hrung.keeps⟩
    obtain ⟨hat, hq⟩ := hw.push (some { Tree.node .error (t :: left) here with extra := true }) q
    have hstop : (Tree.node .error (t :: left) here).stop.offset =
        ((t :: left).getLast?.map (·.stop.offset)).getD a := by
      simp [Tree.node, List.getLast?_eq_some_getLast]
    obtain ⟨hrest, hend⟩ := hpush.sound.pushAll hat hq (hstop ▸ hextras)
    exact ⟨hpush.trans hrest, hend⟩

structure Reaches (L : Law) (places : Stacks) (s : Stand) (slice : Slice) : Prop where
  isOpen : places.Open L slice.place
  way : ∃ n, Way L (places.place slice.place).stand (slice.ways.headD []) n s

theorem Sound.reaches (h : c.Sound L) (hv : c.IsAt v a) (depth : Nat) :
    ∀ slice ∈ c.places.slices (c.version v).top depth,
      Reaches L c.places (c.top v).stand slice := by
  intro slice hslice
  obtain ⟨hne, hways⟩ := Stacks.slices_sound h.places (hv.isOpen h) depth slice hslice
  cases hw : slice.ways with
  | nil => exact absurd hw hne
  | cons way ways =>
    have hway := hways way (by rw [hw]; exact List.mem_cons_self)
    exact ⟨hway.isOpen, depth, by rw [hw]; exact hway.way⟩

/-- An error on the way to a place that is in step is left out together with what lies above. -/
theorem leaves_error [L.Stable] {l : Link} {t : Tree} {ts : List Tree} {i m : Nat} {s : Stand}
    (h : c.Sound L) (hi : c.places.Open L i) (hlost : (c.places.place i).state ≠ lost)
    (hl : l ∈ (c.places.place i).links) (ht : l.tree? = some t) (herror : t.isError = true)
    (hts : Way L (c.places.place i).stand ts m s) :
    c.places.Open L l.below ∧ (c.places.place l.below).state = (c.places.place i).state ∧
      Leaves L (c.places.place i).state (c.places.place l.below).mark.offset s.offset
        (t.children ++ ts) := by
  obtain ⟨hbelow, hjoins, hleads⟩ := h.places.admits hi l hl
  rw [ht] at hjoins hleads
  have hlabel : t.label = .error := by simpa [Tree.isError] using herror
  obtain ⟨hpart | ⟨hextra, hstate⟩, hkeeps⟩ := hleads
  · have hstate : (c.places.place i).state = after _ t.label := hpart.state
    rw [hlabel] at hstate
    exact absurd hstate hlost
  have hstate : (c.places.place i).state = (c.places.place l.below).state := hstate
  have hspecs : ∀ t' ∈ t.children, t'.Specless ∨ HoldsSpecs (c.places.place i).state := by
    intro t' ht'
    rcases hjoins.specs with hspecless | hholds
    · cases hspecless with
      | intro _ hchildren => exact .inl (hchildren t' ht')
    · exact .inr (hstate ▸ hholds)
  have hbetween : Tree.Between t.children (c.places.place l.below).mark.offset
      (c.places.place i).mark.offset :=
    hjoins.sound.between.mono hjoins.start (Nat.le_of_eq hjoins.stop)
  have hleft : LeftOut L.src (c.places.place i).state (c.places.place l.below).mark.offset
      (t.children ++ ts) := by
    refine ⟨fun t' ht' => ?_, ⟨_, hbetween.append hts.between⟩, fun t' ht' => ?_⟩
    · exact (List.mem_append.mp ht').elim (hjoins.sound.children t') (hts.sound t')
    · exact (List.mem_append.mp ht').elim (hspecs t') (hts.specs t')
  obtain ⟨last, hlast, hlastExtra, hstop⟩ := hjoins.filled hextra hlabel
  have hsplit : splitExtras (t.children ++ ts) =
      (t.children ++ (splitExtras ts).1, (splitExtras ts).2) :=
    splitExtras_append_left hlast hlastExtra
  have hne : t.children ≠ [] := by
    rintro hnil
    simp [hnil] at hlast
  refine ⟨hbelow, hstate.symm, fun here hhere _ => ⟨?_, ?_⟩, ?_⟩
  · exact hleft.parts.spans_extra hhere (by simp [hsplit, hne]) (splitExtras_last _)
  · rw [hsplit]
    refine Law.Stable.leftAgain _ here hkeeps hlabel hne fun u hu => hts.keeps u ?_
    exact splitExtras_append ts ▸ List.mem_append_left _ hu
  · -- the extras come behind the parts above, or else right behind the error
    rw [hsplit]
    have hend : (((t.children ++ (splitExtras ts).1).getLast?).map (·.stop.offset)).getD
        (c.places.place l.below).mark.offset =
          ((splitExtras ts).1.getLast?.map (·.stop.offset)).getD
            (c.places.place i).stand.offset := by
      rw [List.getLast?_append, Option.mem_def.mp hlast]
      cases (splitExtras ts).1.getLast? with
      | none => exact (congrArg (·.offset) hstop).symm.trans hjoins.stop
      | some _ => rfl
    rw [hend]
    exact hts.trailing hts.specs

theorem Reaches.grows {places places' : Stacks} {s : Stand} {slice : Slice}
    (h : Reaches L places s slice) (hg : places.Grows L places') : Reaches L places' s slice :=
  ⟨hg.opens _ h.isOpen, by rw [hg.stand h.isOpen.lt]; exact h.way⟩

/-- What a version that goes back to a slice stands on, and what it leaves out. -/
def backTo (places : Stacks) (slice : Slice) : Nat × List Tree :=
  match (places.place slice.place).links.find? fun l => l.tree?.any (·.isError) with
  | some l => (l.below, (l.tree?.map (·.children)).getD [] ++ slice.ways.headD [])
  | none => (slice.place, slice.ways.headD [])

theorem backTo_leaves [L.Stable] {slice : Slice} {s : Stand} (h : c.Sound L)
    (hslice : Reaches L c.places s slice)
    (hlost : (c.places.place slice.place).state ≠ lost) :
    c.places.Open L (backTo c.places slice).1 ∧
      (c.places.place (backTo c.places slice).1).state = (c.places.place slice.place).state ∧
      Leaves L (c.places.place slice.place).state
        (c.places.place (backTo c.places slice).1).mark.offset s.offset
        (backTo c.places slice).2 := by
  obtain ⟨hopen, n, hway⟩ := hslice
  unfold backTo
  split
  · rename_i l hl
    have herror := List.find?_some hl
    cases ht : l.tree? with
    | none => simp [ht] at herror
    | some t =>
      exact leaves_error h hopen hlost (List.mem_of_find?_eq_some hl) ht (by simpa [ht] using herror)
        hway
  · exact ⟨hopen, rfl, hway.leaves⟩

theorem goBackTo_adds [L.Stable] {q : State} {s : Stand} {slices : List Slice} (v : Nat)
    (hq : q ≠ lost) (h : c.Sound L) (hslices : ∀ slice ∈ slices, Reaches L c.places s slice) :
    c.Adds L s.offset (goBackTo v q slices c) := by
  induction slices generalizing c with
  | nil => exact .refl h
  | cons slice slices ih =>
    obtain ⟨hslice, hrest⟩ := List.forall_mem_cons.mp hslices
    rw [goBackTo]
    dsimp only
    split
    · exact ih h hrest
    · rename_i hstate
      have hstate : (c.places.place slice.place).state = q := by simpa using hstate
      obtain ⟨hopen, hbase, hleft⟩ := backTo_leaves h hslice (hstate ▸ hq)
      obtain ⟨hadded, hat, htop⟩ := h.addVersion_isAt
        (x := { top := (backTo c.places slice).1, settled := (c.version v).settled }) rfl hopen
      obtain ⟨hleave, hend⟩ := leaveOut_extends (c.places.place slice.place).mark hadded.sound hat
        (by rw [htop, hbase, hstate]) (h.places.on _ hslice.isOpen.lt) (hstate ▸ hleft)
      have hnext : c.Adds L s.offset
          ((c.addVersion { top := (backTo c.places slice).1, settled := (c.version v).settled }).leaveOut
            c.versions.size q (c.places.place slice.place).mark (backTo c.places slice).2) := by
        refine ⟨hadded.trans hleave, fun u hu hlt => ?_⟩
        rw [size_leaveOut, addVersion, Array.size_push] at hlt
        obtain rfl : u = c.versions.size := by omega
        exact hend
      exact hnext.trans (ih hnext.sound fun slice hmem => (hrest slice hmem).grows hnext.grows)

theorem goBack_adds [L.Stable] (token : Tree) (known : Nat) (levels : List Stacks.Level)
    (h : c.Sound L) (hv : c.IsAt v a) : c.Adds L a (goBack v token known levels c) := by
  induction levels generalizing c with
  | nil => exact .refl h
  | cons level levels ih =>
    rw [goBack]
    dsimp only
    split
    · exact ih h hv
    · rename_i hlevel
      have hlost : level.state ≠ lost := by
        rintro hlost
        simp [hlost] at hlevel
      split
      · exact .refl h
      · split
        · have hback := fun depth => goBackTo_adds v hlost h (h.reaches hv depth)
          have hoffset : (c.top v).stand.offset = a := hv.offset
          rw [hoffset] at hback
          generalize (if 0 < c.progress v then level.depth + 1 else level.depth) = depth
          have hback := hback depth
          split
          · exact hback
          · exact hback.trans (ih hback.sound (hv.adds h hback))
        · exact ih h hv

theorem Sound.pushSkipped {trees : List Tree} {here : Mark} (h : c.Sound L) (hv : c.IsAt v a)
    (hrung : Rung L (c.top v).stand ⟨lost, (Tree.node .skipped trees here).stop.offset⟩
      (.node .skipped trees here)) :
    c.Extends L v (c.push v (some (.node .skipped trees here)) lost) :=
  h.push hv hrung.toSpans (.part ⟨rfl, rfl, nofun⟩ hrung.keeps)

theorem skip_ready [L.Stable] {token : Tree} (h : c.Ready L) (hv : c.IsAt v a)
    (ht : token.IsToken L.src a) : (c.skip v token).Ready L := by
  have hfront := h.front hv
  have hle : a ≤ token.stop.offset := Nat.le_trans ht.behind ht.sound.le
  have hstand : (c.top v).stand = ⟨(c.top v).state, a⟩ := by
    rw [← hv.offset]
    rfl
  unfold skip
  dsimp only
  split
  · rename_i slice slices _ hslices
    obtain ⟨hopen, n, hway⟩ := h.reaches hv 1 slice (by rw [hslices]; exact List.mem_cons_self)
    obtain ⟨hsound, hat, htop⟩ := h.setVersion_isAt
      (x := { c.version v with top := slice.place }) hv.lt hv.status hopen
    have hspecless : (Tree.node .skipped [token] (c.top v).mark).Specless :=
      .intro nofun (by simpa [Tree.node] using ht.specless)
    have hrung := hway.rung_skipped (q := lost) (hstand ▸ rung_skipped ht hfront (h.on v)) hspecless
      (h.on v)
    have hpush := hsound.pushSkipped hat (htop.symm ▸ hrung)
    refine ⟨hpush.sound, h.ahead.but h.toSound hpush.grows (fun u hu => ?_) (hat.push _ _).1 ?_⟩
    · rw [head?_push_of_ne hu, head?_setVersion, if_neg fun h => hu h.1.symm]
    · refine Nat.le_trans (Nat.le_trans hfront hle) (Nat.le_of_eq ?_)
      simp [Tree.node]
  · have hpush := h.pushSkipped hv (hstand ▸ rung_skipped ht hfront (h.on v))
    refine ⟨hpush.sound, h.ahead.push h.toSound hv hpush.grows ?_⟩
    exact Nat.le_trans hfront hle

end Contest

end ImportGroups.Source
