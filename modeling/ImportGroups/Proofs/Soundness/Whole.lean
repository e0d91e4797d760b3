import ImportGroups.Proofs.Soundness.Recovery

/-!
The tree of a whole source.

A version that has read the whole source stands behind its end, above a source file or above an error
that takes all there is. So the last tree on its stack that is neither an extra nor the end is one of
these two, and it takes all other trees of the stack as its parts.
-/

namespace ImportGroups.Source

open Text (Bytes)
open Automaton (lost after Zone)

/-- The tree stands behind the root of a whole source. -/
def Tree.isEnd (t : Tree) : Bool := t.extra || t.label == .token .endOfFile

section Trees

variable {src : Bytes} {us tail : List Tree} {root token : Tree} {here : Mark} {a e : Nat}

theorem wholeTree_of_root (hroot : root.isEnd = false) (htail : ∀ t ∈ tail, t.isEnd = true) :
    Contest.wholeTree here (us ++ root :: tail) =
      some (.node root.label (us ++ root.children ++ tail) here) := by
  have hreverse : (us ++ root :: tail).reverse = tail.reverse ++ root :: us.reverse := by simp
  have hends : ∀ t ∈ tail.reverse, t.isEnd = true := fun t ht => htail t (List.mem_reverse.mp ht)
  have hdrop : (us ++ root :: tail).reverse.dropWhile Tree.isEnd = root :: us.reverse := by
    rw [hreverse, List.dropWhile_append_of_pos hends, List.dropWhile_cons_of_neg (by simp [hroot])]
  have htake : (us ++ root :: tail).reverse.takeWhile Tree.isEnd = tail.reverse := by
    rw [hreverse, List.takeWhile_append_of_pos hends, List.takeWhile_cons_of_neg (by simp [hroot]),
      List.append_nil]
  unfold Contest.wholeTree
  dsimp only
  rw [show List.dropWhile (fun t : Tree => t.extra || t.label == .token .endOfFile) _ = _ from hdrop,
    show List.takeWhile (fun t : Tree => t.extra || t.label == .token .endOfFile) _ = _ from htake]
  simp

theorem Tree.between_children (hroot : root.Sound src) (h : Between (us ++ root :: tail) a e) :
    Between (us ++ root.children ++ tail) a e := by
  obtain ⟨hbefore, hstart, -, hafter⟩ := h.of_append
  rw [List.append_assoc]
  exact hbefore.append ((hroot.between.mono hstart (Nat.le_refl _)).append hafter)

theorem Tree.Between.concat {ts : List Tree} (h : Between ts a e) (ht : token.IsToken src e) :
    Between (ts ++ [token]) a token.stop.offset :=
  h.append ⟨ht.behind, ht.sound.le, Nat.le_refl _⟩

end Trees

namespace Way

variable {L : Law} {m m' s : Stand} {ts us es : List Tree} {t token : Tree} {n : Nat}

theorem file (h : Way L ⟨Automaton.initial, 0⟩ ts n s) (hs : s.state = Automaton.final) :
    ∃ us t es m m', ts = us ++ t :: es ∧ Way L ⟨Automaton.initial, 0⟩ us 0 m ∧ Rung L m m' t ∧
      t.label = .phrase .sourceFile ∧ t.extra = false ∧ Way L m' es 0 s := by
  have hlost : s.state ≠ lost := by
    rw [hs]
    decide
  cases n with
  | zero =>
    have hsame := h.state_of_zero
    rw [hs] at hsame
    exact absurd hsame (by decide)
  | succ n =>
    obtain ⟨us, t, es, m, m', rfl, hus, hrung, hpart, hes⟩ := h.lastPart hlost
    have hmem : after m.state t.label ∈ Zone.whole.states := by
      rw [← hpart.state, ← hes.state_of_zero, hs]
      decide
    obtain ⟨hlabel, hsources⟩ := Automaton.after_into hmem
    obtain ⟨y, hy, hm⟩ := hsources _ rfl
    obtain rfl := List.mem_singleton.mp hy
    cases n with
    | zero => exact ⟨us, t, es, m, m', rfl, hus, hrung, List.mem_singleton.mp hlabel, hpart.extra, hes⟩
    | succ n =>
      -- nothing leads to the state before a file
      obtain ⟨y, hy, -⟩ := hus.into hm rfl
      cases hy

theorem sound_file (hus : Way L ⟨Automaton.initial, 0⟩ us 0 m) (ht : Rung L m m' t)
    (hes : Way L m' es 0 s) (htoken : token.IsToken L.src s.offset) :
    (Tree.node (.phrase .sourceFile) (us ++ t.children ++ (es ++ [token])) token.stop).Sound
      L.src := by
  have hbetween : Tree.Between (us ++ t :: (es ++ [token])) 0 token.stop.offset :=
    hus.between.append ⟨ht.start, ht.sound.le, ht.stop ▸ hes.between.concat htoken⟩
  refine Tree.sound_node htoken.sound.stop (fun c hc => ?_)
    (Tree.between_children ht.sound hbetween) trivial
  simp only [List.mem_append, List.mem_singleton] at hc
  rcases hc with (hc | hc) | hc | rfl
  · exact hus.sound c hc
  · exact ht.sound.children c hc
  · exact hes.sound c hc
  · exact htoken.sound

theorem sound_error (hts : Way L ⟨Automaton.initial, 0⟩ ts n s)
    (htoken : token.IsToken L.src s.offset) :
    (Tree.node .error (ts ++ [token]) token.stop).Sound L.src := by
  refine Tree.sound_node htoken.sound.stop (fun c hc => ?_) (hts.between.concat htoken) trivial
  rcases List.mem_append.mp hc with hc | hc
  · exact hts.sound c hc
  · exact List.mem_singleton.mp hc ▸ htoken.sound

end Way

/-- Nothing more is asked than that the trees fit their source. -/
def Law.plain (src : Bytes) : Law where
  src := src
  front := 0
  keeps _ _ := True
  best t? := ∀ t ∈ t?, t.Sound src

instance (src : Bytes) : (Law.plain src).Stable where
  token _ _ := trivial
  passed _ _ _ := trivial
  putIn _ _ _ _ := trivial
  ranked _ _ := trivial
  moved _ _ := trivial
  leftOut _ _ _ _ := trivial
  leftAgain _ _ _ _ _ _ := trivial
  skipped _ _ _ _ := trivial
  formed _ _ _ _ _ _ _ := trivial
  accepted hus ht _ _ hes _ htoken _ := by
    rintro _ ⟨⟩
    exact Way.sound_file hus ht hes htoken
  gaveUp hts _ htoken _ := by
    rintro _ ⟨⟩
    exact Way.sound_error hts htoken

namespace Stacks

variable {L : Law} {s : Stacks} {i k : Nat} {tail : List Tree}

/-- Trees that lie one on the other above the place `i`, and the place on top. -/
inductive Over (s : Stacks) (i : Nat) : Nat → List Tree → Prop where
  | nil : Over s i i []
  | cons {j k : Nat} {t : Tree} {ts : List Tree} :
      Over s i j ts → (s.place k).links = [⟨j, some t⟩] → Over s i k (ts ++ [t])

theorem Over.push {src : Bytes} {p : Place} (h : s.Over i k tail) (hs : s.Sound src)
    (hk : k < s.size) : Over (s.push p) i k tail := by
  induction h with
  | nil => exact .nil
  | @cons j k t ts _ hlinks ih =>
    have hj : j < s.size := hs.below k hk ⟨j, some t⟩ (by simp [hlinks])
    exact .cons (ih hj) ((congrArg Place.links (place_push_of_lt hk)).trans hlinks)

/-- A descent that has met some of the trees above the place `i`, or all of them and more. -/
def Passes (L : Law) (s : Stacks) (i : Nat) (tail : List Tree) (w : Descent) : Prop :=
  (∃ us, s.Over i w.place us ∧ us ++ w.trees = tail) ∨
    ∃ ts n, w.trees = ts ++ tail ∧ s.OnWay L i ⟨w.place, ts, n⟩

theorem OnWay.passes {w : Descent} {l : Link} {ts : List Tree} {n : Nat} (h : s.Sound L.src)
    (htrees : w.trees = ts ++ tail) (hw : s.OnWay L i ⟨w.place, ts, n⟩)
    (hl : l ∈ (s.place w.place).links) : s.Passes L i tail (w.down l) := by
  have hdown := hw.down h hl
  unfold Descent.down at hdown ⊢
  cases ht : l.tree? with
  | none =>
    rw [ht] at hdown
    exact .inr ⟨ts, n + 1, htrees, hdown⟩
  | some t =>
    rw [ht] at hdown
    exact .inr ⟨t :: ts, _, congrArg (t :: ·) htrees, hdown⟩

theorem Passes.down {w : Descent} {l : Link} (h : s.Sound L.src) (hi : s.Open L i)
    (hw : s.Passes L i tail w) (hl : l ∈ (s.place w.place).links) : s.Passes L i tail (w.down l) := by
  obtain ⟨place, trees, depth⟩ := w
  rcases hw with ⟨us, hover, htail⟩ | ⟨ts, n, htrees, hway⟩
  · cases hover with
    | nil =>
      have hway : s.OnWay L place ⟨place, [], 0⟩ := ⟨hi, .nil _⟩
      have htrees : trees = [] ++ tail := htail
      exact OnWay.passes (w := ⟨place, trees, depth⟩) h htrees hway hl
    | cons hover hlinks =>
      rw [hlinks] at hl
      obtain rfl := List.mem_singleton.mp hl
      refine .inl ⟨_, hover, ?_⟩
      rw [← htail, List.append_assoc]
      rfl
  · exact hway.passes h htrees hl

theorem wholeWays_over (h : s.Sound L.src) (hi : s.Open L i) (hk : s.Over i k tail) :
    ∀ way ∈ s.wholeWays k, ∃ ts n, way = ts ++ tail ∧
      Way L ⟨Automaton.initial, 0⟩ ts n (s.place i).stand := by
  intro way hway
  obtain ⟨w, hw, rfl⟩ := List.mem_map.mp hway
  have hfound := Descent.fromPlace_keeps () (P := s.Passes L i tail)
    (.inl ⟨tail, hk, List.append_nil _⟩) (fun _ w hw _ l hl => hw.down h hi hl) w hw
  obtain ⟨hpasses, _, hroot⟩ := hfound
  have hnil : (s.place w.place).links = [] := List.isEmpty_iff.mp hroot
  have horigin : ∀ j, s.Open L j → (s.place j).links = [] →
      (s.place j).stand = ⟨Automaton.initial, 0⟩ := by
    intro j hj hnil
    rw [h.root j hj.lt hnil]
    exact h.origin
  obtain ⟨place, trees, depth⟩ := w
  rcases hpasses with ⟨us, hover, htail⟩ | ⟨ts, n, htrees, hway⟩
  · cases hover with
    | nil =>
      refine ⟨[], 0, htail, ?_⟩
      rw [horigin _ hi hnil]
      exact .nil _
    | cons _ hlinks =>
      rw [hlinks] at hnil
      cases hnil
  · refine ⟨ts, n, htrees, ?_⟩
    rw [← horigin place hway.isOpen hnil]
    exact hway.way

end Stacks

namespace Contest

variable {L : Law} {c : Contest} {v a : Nat} {token : Tree}

/-- The version `v` may stand behind the end of the source. -/
structure SoundBut (L : Law) (v : Nat) (c : Contest) : Prop where
  places : c.places.Sound L.src
  bottom : c.places.Open L 0
  others : ∀ u ≠ v, ∀ x, c.versions[u]? = some x → x.Fits L c.places
  top : (c.version v).top < c.places.size
  best : L.best c.best?
  latest : ∀ r ∈ c.latest?, r.token.IsToken L.src r.offset

theorem Sound.but (h : c.Sound L) (v : Nat) : c.SoundBut L v :=
  ⟨h.places, h.bottom, fun _ _ x hx => h.versions x (Array.mem_of_getElem? hx), (h.version v).top,
    h.best, h.latest⟩

theorem SoundBut.halt (h : c.SoundBut L v) : (c.setStatus v .halted).Sound L := by
  refine ⟨h.places, h.bottom, fun x hx => ?_, h.best, h.latest⟩
  obtain ⟨u, hu⟩ := Array.getElem?_of_mem hx
  unfold setStatus setVersion at hu
  rw [Array.getElem?_setIfInBounds] at hu
  split_ifs at hu with huv hlt
  · cases hu
    exact ⟨h.top, nofun, nofun⟩
  · exact h.others u (Ne.symm huv) x hu

theorem SoundBut.offer {trees : List Tree} (h : c.SoundBut L v)
    (htrees : ∀ t ∈ trees, L.best (some t)) : (trees.foldl offer c).SoundBut L v := by
  induction trees generalizing c with
  | nil => exact h
  | cons t trees ih =>
    obtain ⟨ht, hrest⟩ := List.forall_mem_cons.mp htrees
    refine ih ⟨h.places, h.bottom, h.others, h.top, ?_, h.latest⟩ hrest
    unfold Contest.offer
    dsimp only
    split
    · exact ht
    · rename_i best hbest
      split_ifs
      · exact ht
      · exact hbest ▸ h.best

theorem SoundBut.close {t : Tree} (h : c.SoundBut L v) (hv : v < c.versions.size)
    (hspans : Spans L.src (c.top v).stand ⟨Automaton.initial, t.stop.offset⟩ t) :
    (c.push v (some t) Automaton.initial).SoundBut L v ∧
      c.places.Grows L (c.push v (some t) Automaton.initial).places ∧
      ((c.push v (some t) Automaton.initial).version v).top = c.places.size := by
  have hplaces := Stacks.extends_push (p := c.places.above (c.version v).top (some t)
    Automaton.initial) h.places hspans.sound.stop rfl h.top hspans
  have hhead := (head?_push c v (some t) Automaton.initial v).trans (if_pos ⟨rfl, hv⟩)
  obtain ⟨-, htop, -⟩ := version_of_head hhead
  refine ⟨⟨hplaces.sound, hplaces.opens 0 h.bottom, fun u hu x hx => ?_, ?_, h.best, h.latest⟩,
    hplaces.toGrows, htop⟩
  · have hx' : (c.push v (some t) Automaton.initial).versions[u]? = c.versions[u]? :=
      Array.getElem?_setIfInBounds_ne (Ne.symm hu)
    exact (h.others u hu x (hx' ▸ hx)).grows hplaces.toGrows
  · rw [htop]
    simp [push]

/-- A version accepts what it has read: a tree of everything between the bottom and the trees that
lie above the place `i`. -/
theorem SoundBut.accept {i : Nat} {tail : List Tree} (h : c.SoundBut L v) (hv : v < c.versions.size)
    (hi : c.places.Open L i) (hover : c.places.Over i (c.version v).top tail)
    (ht : token.IsToken L.src (c.offset v))
    (hbest : ∀ ts n, Way L ⟨Automaton.initial, 0⟩ ts n (c.places.place i).stand →
      ∀ t ∈ wholeTree token.stop (ts ++ (tail ++ [token])), L.best (some t)) :
    (c.accept v token).Sound L := by
  have hspans : Spans L.src (c.top v).stand ⟨Automaton.initial, token.stop.offset⟩ token :=
    ⟨ht.sound, ht.behind, rfl, .inl ht.specless, by simp [ht.extra]⟩
  obtain ⟨hclosed, hgrows, htop⟩ := h.close hv hspans
  have hover' : (c.push v (some token) Automaton.initial).places.Over i c.places.size
      (tail ++ [token]) := by
    refine .cons (j := (c.version v).top) ?_ ?_
    · exact hover.push h.places h.top
    · rw [place_push]
      rfl
  refine (hclosed.offer fun t hmem => ?_).halt
  obtain ⟨way, hway, hwhole⟩ := List.mem_filterMap.mp hmem
  rw [htop] at hway
  obtain ⟨ts, n, rfl, hts⟩ := Stacks.wholeWays_over hclosed.places (hgrows.opens i hi) hover' way hway
  rw [hgrows.stand hi.lt] at hts
  exact hbest ts n hts t hwhole

theorem foldl_offer_keeps (trees : List Tree) (c : Contest) :
    (trees.foldl Contest.offer c).places = c.places ∧
      (trees.foldl Contest.offer c).versions = c.versions := by
  induction trees generalizing c with
  | nil => exact ⟨rfl, rfl⟩
  | cons t trees ih => exact ih (c.offer t)

theorem SoundBut.ahead_accept (h : c.SoundBut L v) (ha : c.Ahead a) (token : Tree) :
    (c.accept v token).Ahead a := by
  intro u x hx hstatus
  obtain ⟨hplaces, hversions⟩ := foldl_offer_keeps (((c.push v (some token)
    Automaton.initial).places.wholeWays ((c.push v (some token) Automaton.initial).version v).top
      ).filterMap (wholeTree token.stop)) (c.push v (some token) Automaton.initial)
  unfold Contest.accept at hx ⊢
  dsimp only at hx ⊢
  generalize List.foldl Contest.offer _ _ = c' at hx hplaces hversions ⊢
  rw [setStatus, head?_setVersion] at hx
  split_ifs at hx with huv
  · cases hx
    cases hstatus
  · have hhead : (c.push v (some token) Automaton.initial).head? u = some x := by
      rwa [head?, ← hversions]
    have huv : u ≠ v := by
      rintro rfl
      exact huv ⟨rfl, lt_size_of_head hx⟩
    rw [head?_push_of_ne huv] at hhead
    obtain ⟨y, hy, rfl⟩ := Option.map_eq_some_iff.mp hhead
    have htop := (h.others u huv y hy).top
    show a ≤ (c'.places.place y.top).mark.offset
    rw [hplaces, show (c.push v (some token) Automaton.initial).places.place y.top =
      c.places.place y.top from Stacks.place_push_of_lt htop]
    exact ha u _ hhead hstatus

theorem Ready.accept [L.Stable] (h : c.Ready L) (hv : c.IsAt v a)
    (hfinal : (c.top v).state = Automaton.final) (ht : token.IsToken L.src a)
    (hlabel : token.label = .token .endOfFile) : (c.accept v token).Ready L := by
  have htoken : token.IsToken L.src (c.offset v) := hv.offset.symm ▸ ht
  have hfront : L.front ≤ c.offset v := Nat.le_trans (h.front hv) (Nat.le_of_eq hv.offset.symm)
  refine ⟨(h.but v).accept hv.lt (hv.isOpen h.toSound) .nil htoken fun ts n hts t hwhole => ?_,
    (h.but v).ahead_accept h.ahead token⟩
  obtain ⟨us, root, es, m, m', rfl, hus, hroot, hfile, hextra, hes⟩ := hts.file hfinal
  have hrootEnd : root.isEnd = false := by simp [Tree.isEnd, hextra, hfile]
  have hends : ∀ t ∈ es ++ [token], t.isEnd = true := by
    intro t ht
    rcases List.mem_append.mp ht with ht | ht
    · simp [Tree.isEnd, hes.extra_of_zero t ht]
    · simp [Tree.isEnd, List.mem_singleton.mp ht, hlabel]
  rw [List.nil_append, List.append_assoc, List.cons_append, wholeTree_of_root hrootEnd hends,
    hfile] at hwhole
  cases hwhole
  exact Law.Stable.accepted hus hroot hfile hextra hes hfront htoken hlabel

theorem Ready.acceptError [L.Stable] (h : c.Ready L) (hv : c.IsAt v a) (ht : token.IsToken L.src a)
    (hlabel : token.label = .token .endOfFile) :
    ((c.push v (some (.node .error [] (c.top v).mark)) Automaton.initial).accept v token).Ready
      L := by
  have hspans : Spans L.src (c.top v).stand
      ⟨Automaton.initial, (Tree.node .error [] (c.top v).mark).stop.offset⟩
      (.node .error [] (c.top v).mark) :=
    ⟨Tree.sound_node (h.on v) (by simp) (Nat.le_refl 0) trivial, Nat.le_refl _, rfl,
      .inl (.intro nofun (by simp [Tree.node])), nofun⟩
  obtain ⟨hclosed, hgrows, htop⟩ := (h.but v).close hv.lt hspans
  have hat := (hv.push (some (.node .error [] (c.top v).mark)) Automaton.initial).1
  have hopen := hv.isOpen h.toSound
  have hfront : L.front ≤ c.offset v := Nat.le_trans (h.front hv) (Nat.le_of_eq hv.offset.symm)
  have hahead := h.ahead.push h.toSound hv hgrows hfront
  have hover : (c.push v (some (.node .error [] (c.top v).mark)) Automaton.initial).places.Over
      (c.version v).top
      ((c.push v (some (.node .error [] (c.top v).mark)) Automaton.initial).version v).top
      ([] ++ [.node .error [] (c.top v).mark]) := by
    refine .cons .nil ?_
    rw [htop, place_push]
    rfl
  have htoken : token.IsToken L.src (c.offset v) := hv.offset.symm ▸ ht
  refine ⟨hclosed.accept hat.lt (hgrows.opens _ hopen) hover ?_ fun ts n hts t hwhole => ?_,
    hclosed.ahead_accept hahead token⟩
  · rw [hat.offset]
    exact htoken
  · rw [List.nil_append, List.singleton_append, wholeTree_of_root rfl (by simp [Tree.isEnd, hlabel])]
      at hwhole
    cases hwhole
    rw [hgrows.stand hopen.lt] at hts
    have hchildren : ts ++ (Tree.node .error [] (c.top v).mark).children ++ [token] = ts ++ [token] := by
      simp [Tree.node]
    rw [hchildren]
    exact Law.Stable.gaveUp hts hfront htoken hlabel

end Contest

end ImportGroups.Source
