import ImportGroups.Proofs.Soundness.Ways

/-!
Stacks that fit their source.

Every link of a stack holds a tree between its two places. From an open place all links go down by
steps of the automaton to open places again, over trees that keep a law; only behind the end of the
source there are others. Where places become one, that stays so: what is asked of a link depends on
the states and the offsets of its places alone.
-/

namespace ImportGroups.Source

open Text (Bytes)
open Automaton (lost)

def Place.stand (p : Place) : Stand := ⟨p.state, p.mark.offset⟩

/-- What lies between two places. -/
def Joins (src : Bytes) (b s : Stand) : Option Tree → Prop
  | none => s.offset = b.offset
  | some t => Spans src b s t

/-- The automaton gets from one place to the other with the tree, or falls out of step. -/
def Leads (L : Law) (b s : Stand) : Option Tree → Prop
  | none => s.state = lost
  | some t => (IsPart b.state s.state t ∨ t.extra = true ∧ s.state = b.state) ∧ L.keeps b t

theorem Leads.part {L : Law} {p : Place} {q : State} {a : Nat} {t : Tree} (h : IsPart p.state q t)
    (hkeeps : L.keeps p.stand t) : Leads L p.stand ⟨q, a⟩ (some t) :=
  ⟨.inl h, hkeeps⟩

theorem Leads.extra {L : Law} {p : Place} {a : Nat} {t : Tree} (h : t.extra = true)
    (hkeeps : L.keeps p.stand t) : Leads L p.stand ⟨p.state, a⟩ (some t) :=
  ⟨.inr ⟨h, rfl⟩, hkeeps⟩

namespace Stacks

variable {L : Law} {src : Bytes} {s s' s'' : Stacks} {i j : Nat} {l : Link}

/-- Places from which all ways down are steps of the automaton to such places again. -/
def Closed (L : Law) (s : Stacks) (O : Nat → Prop) : Prop :=
  ∀ i, O i → i < s.size ∧ ∀ l ∈ (s.place i).links,
    O l.below ∧ Leads L (s.place l.below).stand (s.place i).stand l.tree?

/-- All ways down from a place are steps of the automaton. -/
def Open (L : Law) (s : Stacks) (i : Nat) : Prop := ∃ O, s.Closed L O ∧ O i

theorem closed_open (L : Law) (s : Stacks) : s.Closed L (s.Open L) := by
  rintro i ⟨O, hO, hi⟩
  obtain ⟨hlt, hlinks⟩ := hO i hi
  exact ⟨hlt, fun l hl => ⟨⟨O, hO, (hlinks l hl).1⟩, (hlinks l hl).2⟩⟩

theorem Open.lt (h : s.Open L i) : i < s.size := (closed_open L s i h).1

theorem open_of_links (hi : i < s.size) (hlinks : ∀ l ∈ (s.place i).links,
    s.Open L l.below ∧ Leads L (s.place l.below).stand (s.place i).stand l.tree?) : s.Open L i := by
  refine ⟨fun j => s.Open L j ∨ j = i, ?_, .inr rfl⟩
  rintro j (hj | rfl)
  · obtain ⟨hlt, hopen⟩ := closed_open L s j hj
    exact ⟨hlt, fun l hl => ⟨.inl (hopen l hl).1, (hopen l hl).2⟩⟩
  · exact ⟨hi, fun l hl => ⟨.inl (hlinks l hl).1, (hlinks l hl).2⟩⟩

structure Admits (L : Law) (s : Stacks) (i : Nat) (l : Link) : Prop where
  below : s.Open L l.below
  joins : Joins L.src (s.place l.below).stand (s.place i).stand l.tree?
  leads : Leads L (s.place l.below).stand (s.place i).stand l.tree?

structure Sound (src : Bytes) (s : Stacks) : Prop where
  on : ∀ i < s.size, (s.place i).mark.On src
  below : ∀ i < s.size, ∀ l ∈ (s.place i).links, l.below < s.size
  joins : ∀ i < s.size, ∀ l ∈ (s.place i).links,
    Joins src (s.place l.below).stand (s.place i).stand l.tree?
  origin : (s.place 0).stand = ⟨Automaton.initial, 0⟩
  /-- All other places have something below them. -/
  root : ∀ i < s.size, (s.place i).links = [] → i = 0

/-- Places are added, and links to the places that are there. -/
structure Grows (L : Law) (s s' : Stacks) : Prop where
  size : s.size ≤ s'.size
  state : ∀ i < s.size, (s'.place i).state = (s.place i).state
  mark : ∀ i < s.size, (s'.place i).mark = (s.place i).mark
  opens : ∀ i, s.Open L i → s'.Open L i

theorem Grows.refl (L : Law) (s : Stacks) : s.Grows L s :=
  ⟨Nat.le_refl _, fun _ _ => rfl, fun _ _ => rfl, fun _ h => h⟩

theorem Grows.trans (h : s.Grows L s') (h' : s'.Grows L s'') : s.Grows L s'' where
  size := Nat.le_trans h.size h'.size
  state i hi := (h'.state i (Nat.lt_of_lt_of_le hi h.size)).trans (h.state i hi)
  mark i hi := (h'.mark i (Nat.lt_of_lt_of_le hi h.size)).trans (h.mark i hi)
  opens i hi := h'.opens i (h.opens i hi)

theorem Grows.stand (h : s.Grows L s') (hi : i < s.size) :
    (s'.place i).stand = (s.place i).stand := by
  rw [Place.stand, Place.stand, h.state i hi, h.mark i hi]

theorem Sound.admits (h : s.Sound L.src) (hi : s.Open L i) :
    ∀ l ∈ (s.place i).links, s.Admits L i l := by
  intro l hl
  obtain ⟨hlt, hlinks⟩ := closed_open L s i hi
  exact ⟨(hlinks l hl).1, h.joins i hlt l hl, (hlinks l hl).2⟩

theorem Admits.grows (h : s.Admits L i l) (hg : s.Grows L s') (hi : i < s.size) :
    s'.Admits L i l := by
  refine ⟨hg.opens _ h.below, ?_, ?_⟩ <;> rw [hg.stand h.below.lt, hg.stand hi]
  · exact h.joins
  · exact h.leads

theorem Admits.of_stand (h : s.Admits L i l) (hij : (s.place j).stand = (s.place i).stand) :
    s.Admits L j l :=
  ⟨h.below, hij ▸ h.joins, hij ▸ h.leads⟩

/-- A stack that fits its source and has grown out of another one. -/
structure Extends (L : Law) (s s' : Stacks) : Prop extends Grows L s s' where
  sound : s'.Sound L.src

theorem Extends.refl (h : s.Sound L.src) : s.Extends L s := ⟨.refl L s, h⟩

theorem Extends.trans (h : s.Extends L s') (h' : s'.Extends L s'') : s.Extends L s'' :=
  ⟨h.toGrows.trans h'.toGrows, h'.sound⟩

theorem extends_of_place {p : Place} (h : s.Sound L.src) (hsize : s'.size = s.size)
    (hplace : ∀ j, s'.place j = s.place j ∨ j = i ∧ s'.place j = p)
    (hstand : p.state = (s.place i).state ∧ p.mark = (s.place i).mark)
    (hlinks : ∀ l ∈ p.links, s.Admits L i l) (hroot : p.links = [] → (s.place i).links = []) :
    s.Extends L s' := by
  have hstate : ∀ j, (s'.place j).state = (s.place j).state := by
    intro j
    rcases hplace j with hj | ⟨rfl, hj⟩ <;> rw [hj]
    exact hstand.1
  have hmark : ∀ j, (s'.place j).mark = (s.place j).mark := by
    intro j
    rcases hplace j with hj | ⟨rfl, hj⟩ <;> rw [hj]
    exact hstand.2
  have hstand' : ∀ j, (s'.place j).stand = (s.place j).stand := by
    intro j
    rw [Place.stand, Place.stand, hstate, hmark]
  have hclosed : s'.Closed L (s.Open L) := by
    intro j hj
    refine ⟨hsize ▸ hj.lt, fun l hl => ?_⟩
    rw [hstand', hstand']
    rcases hplace j with hsame | ⟨rfl, hp⟩
    · exact (closed_open L s j hj).2 l (hsame ▸ hl)
    · exact ⟨(hlinks l (hp ▸ hl)).below, (hlinks l (hp ▸ hl)).leads⟩
  refine ⟨⟨Nat.le_of_eq hsize.symm, fun j _ => hstate j, fun j _ => hmark j,
    fun j hj => ⟨s.Open L, hclosed, hj⟩⟩, ?_, ?_, ?_, (hstand' 0).trans h.origin, ?_⟩
  · intro j hj
    rw [hmark]
    exact h.on j (hsize ▸ hj)
  · intro j hj l hl
    rw [hsize]
    rcases hplace j with hsame | ⟨rfl, hp⟩
    · exact h.below j (hsize ▸ hj) l (hsame ▸ hl)
    · exact (hlinks l (hp ▸ hl)).below.lt
  · intro j hj l hl
    rw [hstand', hstand']
    rcases hplace j with hsame | ⟨rfl, hp⟩
    · exact h.joins j (hsize ▸ hj) l (hsame ▸ hl)
    · exact (hlinks l (hp ▸ hl)).joins
  · intro j hj hnil
    rcases hplace j with hsame | ⟨rfl, hp⟩
    · exact h.root j (hsize ▸ hj) (hsame ▸ hnil)
    · exact h.root j (hsize ▸ hj) (hroot (hp ▸ hnil))

theorem extends_set {p : Place} (h : s.Sound L.src)
    (hstand : p.state = (s.place i).state ∧ p.mark = (s.place i).mark)
    (hlinks : ∀ l ∈ p.links, s.Admits L i l) (hroot : p.links = [] → (s.place i).links = []) :
    s.Extends L (s.setIfInBounds i p) := by
  refine extends_of_place h Array.size_setIfInBounds (fun j => ?_) hstand hlinks hroot
  unfold place
  rw [Array.getElem?_setIfInBounds]
  split_ifs with hj hi
  · exact .inr ⟨hj.symm, rfl⟩
  · refine .inl ?_
    rw [Array.getElem?_eq_none (by omega)]
  · exact .inl rfl

theorem place_push_of_lt {p : Place} (hi : i < s.size) : place (s.push p) i = s.place i := by
  unfold place
  rw [Array.getElem?_push_lt hi, Array.getElem?_eq_getElem hi]

theorem place_push_size (s : Stacks) (p : Place) : place (s.push p) s.size = p := by
  unfold place
  rw [Array.getElem?_push_size]
  rfl

theorem extends_push {p : Place} (h : s.Sound L.src) (hmark : p.mark.On L.src)
    (hlinks : p.links = [l]) (hbelow : l.below < s.size)
    (hjoins : Joins L.src (s.place l.below).stand p.stand l.tree?) : s.Extends L (s.push p) := by
  have hold : ∀ j < s.size, place (s.push p) j = s.place j := fun j hj => place_push_of_lt hj
  have hnew := place_push_size s p
  have hsize : (s.push p).size = s.size + 1 := Array.size_push p
  have hcases : ∀ j < (s.push p).size, j < s.size ∨ j = s.size := by omega
  have hclosed : Closed L (s.push p) (s.Open L) := by
    intro j hj
    have hlt := hj.lt
    refine ⟨by omega, ?_⟩
    rw [hold j hlt]
    intro l hl
    rw [hold _ (h.below j hlt l hl)]
    exact (closed_open L s j hj).2 l hl
  refine ⟨⟨by omega, fun j hj => by rw [hold j hj], fun j hj => by rw [hold j hj],
    fun j hj => ⟨s.Open L, hclosed, hj⟩⟩, ?_, ?_, ?_, ?_, ?_⟩
  · intro j hj
    rcases hcases j hj with hj | rfl
    · rw [hold j hj]
      exact h.on j hj
    · rwa [hnew]
  · intro j hj l' hl'
    rcases hcases j hj with hj | rfl
    · rw [hold j hj] at hl'
      have := h.below j hj l' hl'
      omega
    · rw [hnew, hlinks, List.mem_singleton] at hl'
      subst hl'
      omega
  · intro j hj l' hl'
    rcases hcases j hj with hj | rfl
    · rw [hold j hj] at hl' ⊢
      rw [hold _ (h.below j hj l' hl')]
      exact h.joins j hj l' hl'
    · rw [hnew, hlinks, List.mem_singleton] at hl'
      subst hl'
      rw [hnew, hold _ hbelow]
      exact hjoins
  · rw [hold 0 (by omega)]
    exact h.origin
  · intro j hj hnil
    rcases hcases j hj with hj | rfl
    · exact h.root j hj (hold j hj ▸ hnil)
    · rw [hnew, hlinks] at hnil
      cases hnil

theorem foldl_extends {f : Stacks → Link → Stacks} {links : List Link}
    (hf : ∀ {s l}, Sound L.src s → s.Open L i → s.Admits L i l → s.Extends L (f s l))
    (h : s.Sound L.src) (hi : s.Open L i) (hlinks : ∀ l ∈ links, s.Admits L i l) :
    s.Extends L (links.foldl f s) := by
  induction links generalizing s with
  | nil => exact .refl h
  | cons l links ih =>
    obtain ⟨hl, hrest⟩ := List.forall_mem_cons.mp hlinks
    have hfirst := hf h hi hl
    exact hfirst.trans (ih hfirst.sound (hfirst.opens i hi) fun l hl =>
      (hrest l hl).grows hfirst.toGrows hi.lt)

theorem joinable_stand (h : s.joinable i j = true) : (s.place i).stand = (s.place j).stand := by
  simp only [joinable, Bool.and_eq_true, beq_iff_eq] at h
  rw [Place.stand, Place.stand, h.1.1, h.1.2]

theorem coveringLink?_below {links : List Link} {k : Nat} {known : Link}
    (h : s.coveringLink? links l = some k) (hk : links[k]? = some known) :
    known.below = l.below ∨ s.joinable known.below l.below = true := by
  obtain ⟨hlt, hp, -⟩ := List.findIdx?_eq_some_iff_getElem.mp h
  obtain ⟨-, rfl⟩ := List.getElem?_eq_some_iff.mp hk
  simp only [Bool.and_eq_true, Bool.or_eq_true, beq_iff_eq] at hp
  exact hp.2

theorem addLink_extends (fuel : Nat) (h : s.Sound L.src) (hi : s.Open L i) (hl : s.Admits L i l) :
    s.Extends L (addLink fuel s i l) := by
  induction fuel generalizing s i l with
  | zero => exact .refl h
  | succ fuel ih =>
    have hlinks := h.admits hi
    rw [addLink]
    dsimp only
    split
    · exact .refl h
    · split
      · rename_i k hk
        split
        · exact .refl h
        · rename_i known hknown
          have hmem := List.mem_of_getElem? hknown
          split
          · split
            · refine extends_set h ⟨rfl, rfl⟩ (fun l' hl' => ?_) (by simp)
              rcases List.mem_or_eq_of_mem_set hl' with hl' | rfl
              · exact hlinks l' hl'
              · exact hl
            · exact .refl h
          · -- the places below become one, and the link itself is not needed
            rename_i hne
            have hstand : (s.place known.below).stand = (s.place l.below).stand :=
              joinable_stand ((coveringLink?_below hk hknown).resolve_left (by simpa using hne))
            have hknown := (hlinks known hmem).below
            have hjoined := foldl_extends (f := fun s l => addLink fuel s known.below l) ih h hknown
              fun l' hl' => (h.admits hl.below l' hl').of_stand hstand
            refine hjoined.trans (extends_set hjoined.sound ?_ (fun l' hl' => ?_) fun hnil => ?_)
            · exact ⟨(hjoined.state i hi.lt).symm, (hjoined.mark i hi.lt).symm⟩
            · exact (hlinks l' hl').grows hjoined.toGrows hi.lt
            · rw [show _ = [] from hnil] at hmem
              cases hmem
      · split
        · exact .refl h
        · refine extends_set h ⟨rfl, rfl⟩ (fun l' hl' => ?_) (by simp)
          rcases List.mem_append.mp hl' with hl' | hl'
          · exact hlinks l' hl'
          · exact List.mem_singleton.mp hl' ▸ hl

theorem join_extends (h : s.Sound L.src) (hi : s.Open L i) (hj : s.Open L j)
    (hstand : (s.place i).stand = (s.place j).stand) : s.Extends L (s.join i j) :=
  foldl_extends (f := fun s' l => addLink (Array.size s) s' i l) (addLink_extends (Array.size s)) h hi
    fun l hl => (h.admits hj l hl).of_stand hstand

end Stacks

namespace Descent

variable {σ : Type} {s : Stacks} {visit : σ → Descent → σ × Verdict} {P : Descent → Prop}

def Found (visit : σ → Descent → σ × Verdict) (P : Descent → Prop) (w : Descent) : Prop :=
  P w ∧ ∃ notes, (visit notes w).2.found = true

def KeptDown (s : Stacks) (visit : σ → Descent → σ × Verdict) (P : Descent → Prop) : Prop :=
  ∀ notes w, P w → (visit notes w).2.stop = false → ∀ l ∈ (s.place w.place).links, P (w.down l)

theorem round_keeps (hdown : KeptDown s visit P) {ws kept added found : List Descent} {notes : σ} (hws : ∀ w ∈ ws, P w)
    (hkept : ∀ w ∈ kept, P w) (hadded : ∀ w ∈ added, P w) (hfound : ∀ w ∈ found, Found visit P w) :
    (∀ w ∈ (round s visit ws kept added found notes).descents, P w) ∧
      ∀ w ∈ (round s visit ws kept added found notes).found, Found visit P w := by
  induction ws generalizing kept added found notes with
  | nil =>
    refine ⟨fun w hw => ?_, hfound⟩
    rcases List.mem_append.mp hw with hw | hw
    · exact hkept w (List.mem_reverse.mp hw)
    · exact hadded w (List.mem_reverse.mp hw)
  | cons w rest ih =>
    obtain ⟨hw, hrest⟩ := List.forall_mem_cons.mp hws
    have hfound' : ∀ w' ∈ (if (visit notes w).2.found then w :: found else found),
        Found visit P w' := by
      split
      · rename_i hv
        exact List.forall_mem_cons.mpr ⟨⟨hw, notes, hv⟩, hfound⟩
      · exact hfound
    rw [round]
    dsimp only
    split
    · rename_i l ls hstop hlinks
      have hlinks' := hdown notes w hw hstop
      rw [hlinks] at hlinks'
      obtain ⟨hl, hls⟩ := List.forall_mem_cons.mp hlinks'
      refine ih hrest (List.forall_mem_cons.mpr ⟨hl, hkept⟩) ?_ hfound'
      intro w' hw'
      rcases List.mem_append.mp hw' with hw' | hw'
      · obtain ⟨l', hl', rfl⟩ := List.mem_map.mp (List.mem_reverse.mp hw')
        exact hls l' (List.mem_of_mem_take hl')
      · exact hadded w' hw'
    · exact ih hrest hkept hadded hfound'

theorem run_keeps (hdown : KeptDown s visit P) (fuel : Nat) {p : Progress σ}
    (hdescents : ∀ w ∈ p.descents, P w) (hfound : ∀ w ∈ p.found, Found visit P w) : ∀ w ∈ (run s visit fuel p).found, Found visit P w := by
  induction fuel generalizing p with
  | zero => exact hfound
  | succ fuel ih =>
    rw [run]
    split
    · exact hfound
    · have hround : (∀ w ∈ (round s visit p.descents [] [] p.found p.notes).descents, P w) ∧
          ∀ w ∈ (round s visit p.descents [] [] p.found p.notes).found, Found visit P w :=
        round_keeps hdown hdescents (by simp) (by simp) hfound
      exact ih hround.1 hround.2

theorem fromPlace_keeps {i : Nat} (notes : σ) (hstart : P ⟨i, [], 0⟩)
    (hdown : KeptDown s visit P) :
    ∀ w ∈ (fromPlace s visit notes i).1, Found visit P w := by
  intro w hw
  exact run_keeps hdown _ (by simpa using hstart) (by simp) w (List.mem_reverse.mp hw)

end Descent

theorem Slice.ofDescents_keeps {P : Nat → List Tree → Prop} {ws : List Descent} {slices : List Slice}
    (hws : ∀ w ∈ ws, P w.place w.trees)
    (hslices : ∀ s ∈ slices, s.ways ≠ [] ∧ ∀ way ∈ s.ways, P s.place way) :
    ∀ s ∈ ofDescents ws slices, s.ways ≠ [] ∧ ∀ way ∈ s.ways, P s.place way := by
  induction ws generalizing slices with
  | nil => exact fun s hs => hslices s (List.mem_reverse.mp hs)
  | cons w ws ih =>
    obtain ⟨hw, hrest⟩ := List.forall_mem_cons.mp hws
    rw [ofDescents]
    split
    · refine ih hrest fun s' hs' => ?_
      obtain ⟨s, hs, rfl⟩ := List.mem_map.mp hs'
      obtain ⟨hne, hways⟩ := hslices s hs
      split
      · rename_i hplace
        refine ⟨by simp, fun way hway => ?_⟩
        rcases List.mem_append.mp hway with hway | hway
        · exact hways way hway
        · obtain rfl := List.mem_singleton.mp hway
          exact beq_iff_eq.mp hplace ▸ hw
      · exact ⟨hne, hways⟩
    · exact ih hrest (List.forall_mem_cons.mpr ⟨by simpa using hw, hslices⟩)

namespace Stacks

variable {L : Law} {s : Stacks} {i depth : Nat}

structure OnWay (L : Law) (s : Stacks) (i : Nat) (w : Descent) : Prop where
  isOpen : s.Open L w.place
  way : Way L (s.place w.place).stand w.trees w.depth (s.place i).stand

theorem OnWay.down {w : Descent} {l : Link} (h : s.Sound L.src) (hw : s.OnWay L i w)
    (hl : l ∈ (s.place w.place).links) : s.OnWay L i (w.down l) := by
  obtain ⟨hbelow, hjoins, hleads⟩ := h.admits hw.isOpen l hl
  have hway := hw.way
  unfold Descent.down
  split
  · rename_i t ht
    rw [ht] at hjoins hleads
    refine ⟨hbelow, ?_⟩
    obtain ⟨hpart | ⟨hextra, hstate⟩, hkeeps⟩ := hleads
    · rw [hpart.extra]
      exact .part ⟨hjoins, hkeeps⟩ hpart hway
    · rw [hextra]
      exact .extra ⟨hjoins, hkeeps⟩ hextra hstate hway
  · rename_i ht
    rw [ht] at hjoins hleads
    have hstand : (s.place w.place).stand = ⟨lost, (s.place l.below).stand.offset⟩ := by
      rw [← hjoins, ← hleads]
    exact ⟨hbelow, .gap (hstand ▸ hway)⟩

/-- Trees on the way from an open place to one above it. Before a place that is in step, the first one
is no extra. -/
structure IsSlice (L : Law) (s : Stacks) (i depth j : Nat) (trees : List Tree) : Prop where
  isOpen : s.Open L j
  way : Way L (s.place j).stand trees depth (s.place i).stand
  first : (s.place i).state ≠ lost → ∀ t ∈ trees.head?, t.extra = false

theorem slices_sound (h : s.Sound L.src) (hi : s.Open L i) (depth : Nat) :
    ∀ slice ∈ s.slices i depth, slice.ways ≠ [] ∧
      ∀ way ∈ slice.ways, s.IsSlice L i depth slice.place way := by
  refine Slice.ofDescents_keeps (fun w hw => ?_) (by simp)
  -- a descent ends where it has come deep enough, so what it found last is no extra
  have hfound := Descent.fromPlace_keeps () (P := fun w => s.OnWay L i w ∧
    (w.depth = depth → (s.place i).state ≠ lost → ∀ t ∈ w.trees.head?, t.extra = false))
    ⟨⟨hi, .nil _⟩, by simp⟩ ?_ w hw
  · obtain ⟨⟨hway, hfirst⟩, _, hdepth⟩ := hfound
    obtain rfl : w.depth = depth := by simpa using hdepth
    exact ⟨hway.isOpen, hway.way, hfirst rfl⟩
  · rintro _ w ⟨hway, -⟩ hstop l hl
    refine ⟨hway.down h hl, fun hdepth hlost t ht => ?_⟩
    have hne : w.depth ≠ depth := by simpa using hstop
    have hleads := ((closed_open L s _ hway.isOpen).2 l hl).2
    unfold Descent.down at hdepth ht
    cases hl : l.tree? with
    | none =>
      rw [hl] at hleads
      exact absurd (hway.way.of_lost hleads) hlost
    | some t' =>
      simp only [hl] at hdepth ht
      obtain rfl : t' = t := by simpa using ht
      cases hextra : t'.extra with
      | true => exact absurd (by simpa [hextra] using hdepth) hne
      | false => rfl

end Stacks

end ImportGroups.Source
