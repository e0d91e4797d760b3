import ImportGroups.Proofs.Soundness.Stacks

/-!
Readings that fit their source.

Every version of a reading stands at a place from which all ways down are steps of the automaton, and
a token for which it waits lies behind that place. Forming phrases adds versions; all of them come to
the same offset as the version that they come from, and the versions before them stay where they are.
-/

namespace ImportGroups.Source

open Text (Bytes)
open Automaton (lost rulesBefore after)

/-- The place that a version has reached, and whether it goes on from there. -/
def Version.head (v : Version) : Nat × Status := (v.top, v.status)

structure Version.Fits (L : Law) (s : Stacks) (v : Version) : Prop where
  top : v.top < s.size
  isOpen : v.status.isHalted = false → s.Open L v.top
  paused : ∀ t, v.status = .paused t → t.IsToken L.src (s.place v.top).mark.offset

theorem Version.Fits.grows {L : Law} {s s' : Stacks} {v : Version} (h : v.Fits L s)
    (hg : s.Grows L s') : v.Fits L s' where
  top := Nat.lt_of_lt_of_le h.top hg.size
  isOpen hv := hg.opens _ (h.isOpen hv)
  paused t ht := by
    rw [hg.mark _ h.top]
    exact h.paused t ht

theorem Version.Fits.of_head {L : Law} {s : Stacks} {v x : Version} (h : v.Fits L s)
    (hx : x.head = v.head) : x.Fits L s := by
  obtain ⟨htop, hstatus⟩ := Prod.mk.inj hx
  exact ⟨htop ▸ h.top, htop ▸ hstatus ▸ h.isOpen, htop ▸ hstatus ▸ h.paused⟩

namespace Contest

structure Sound (L : Law) (c : Contest) : Prop where
  places : c.places.Sound L.src
  bottom : c.places.Open L 0
  versions : ∀ v ∈ c.versions, v.Fits L c.places
  best : L.best c.best?
  latest : ∀ r ∈ c.latest?, r.token.IsToken L.src r.offset

def head? (c : Contest) (v : Nat) : Option (Nat × Status) := c.versions[v]?.map Version.head

structure Extends (L : Law) (n : Nat) (c c' : Contest) : Prop where
  sound : c'.Sound L
  grows : c.places.Grows L c'.places
  heads : ∀ v < n, c'.head? v = c.head? v

structure IsAt (c : Contest) (v a : Nat) : Prop where
  head : c.head? v = some ((c.version v).top, .active)
  offset : c.offset v = a

variable {L : Law} {c c' c'' : Contest} {n v w a : Nat} {x : Version}

theorem Extends.refl (h : c.Sound L) (n : Nat) : c.Extends L n c := ⟨h, .refl L _, fun _ _ => rfl⟩

theorem Extends.trans (h : c.Extends L n c') (h' : c'.Extends L n c'') :
    c.Extends L n c'' :=
  ⟨h'.sound, h.grows.trans h'.grows, fun v hv => (h'.heads v hv).trans (h.heads v hv)⟩

theorem Extends.mono {m : Nat} (h : c.Extends L n c') (hm : m ≤ n) : c.Extends L m c' :=
  ⟨h.sound, h.grows, fun v hv => h.heads v (Nat.lt_of_lt_of_le hv hm)⟩

theorem head?_isSome : (c.head? v).isSome = true ↔ v < c.versions.size := by
  simp [head?]

theorem Extends.size (h : c.Extends L n c') (hn : n ≤ c.versions.size) :
    n ≤ c'.versions.size := by
  cases n with
  | zero => exact Nat.zero_le _
  | succ n =>
    have hsome : (c.head? n).isSome = true := head?_isSome.mpr hn
    rwa [← h.heads n (Nat.lt_succ_self n), head?_isSome] at hsome

theorem version_of_head {i : Nat} {st : Status} (h : c.head? v = some (i, st)) :
    c.version v ∈ c.versions ∧ (c.version v).top = i ∧ (c.version v).status = st := by
  obtain ⟨x, hx, hhead⟩ := Option.map_eq_some_iff.mp h
  have hversion : c.version v = x := by rw [version, hx, Option.getD_some]
  rw [hversion]
  exact ⟨Array.mem_of_getElem? hx, congrArg Prod.fst hhead, congrArg Prod.snd hhead⟩

theorem version_cases (c : Contest) (v : Nat) : c.version v ∈ c.versions ∨
    c.head? v = none ∧ (c.version v).top = 0 ∧ (c.version v).status = .active := by
  cases h : c.versions[v]? with
  | none => exact .inr ⟨by simp [head?, h], by rw [version, h]; rfl, by rw [version, h]; rfl⟩
  | some x => exact .inl (by rw [version, h, Option.getD_some]; exact Array.mem_of_getElem? h)

theorem version_top_of_head (h : c'.head? v = c.head? v) :
    (c'.version v).top = (c.version v).top := by
  cases hc : c.head? v with
  | some x => rw [(version_of_head (h.trans hc)).2.1, (version_of_head hc).2.1]
  | none =>
    have htop : ∀ c : Contest, c.head? v = none → (c.version v).top = 0 := by
      intro c hc
      rw [Contest.version, Option.map_eq_none_iff.mp hc]
      rfl
    rw [htop c hc, htop c' (h.trans hc)]

theorem Sound.version (h : c.Sound L) (v : Nat) : (c.version v).Fits L c.places := by
  rcases c.version_cases v with hv | ⟨-, htop, hstatus⟩
  · exact h.versions _ hv
  · refine ⟨htop ▸ h.bottom.lt, fun _ => htop ▸ h.bottom, fun t ht => ?_⟩
    rw [hstatus] at ht
    cases ht

theorem Sound.on (h : c.Sound L) (v : Nat) : (c.top v).mark.On L.src :=
  h.places.on _ (h.version v).top

theorem Sound.setVersion (h : c.Sound L) (hx : x.Fits L c.places) (v : Nat) :
    (c.setVersion v x).Sound L := by
  refine ⟨h.places, h.bottom, fun y hy => ?_, h.best, h.latest⟩
  rcases Array.mem_or_eq_of_mem_setIfInBounds hy with hy | rfl
  · exact h.versions y hy
  · exact hx

theorem mem_of_mem_eraseIdx {versions : Array Version} (h : x ∈ versions.eraseIdxIfInBounds v) :
    x ∈ versions := by
  rw [← Array.mem_toList_iff, Array.toList_eraseIdxIfInBounds] at h
  exact Array.mem_toList_iff.mp (List.mem_of_mem_eraseIdx h)

theorem Sound.removeVersion (h : c.Sound L) (v : Nat) : (c.removeVersion v).Sound L :=
  ⟨h.places, h.bottom, fun y hy => h.versions y (mem_of_mem_eraseIdx hy), h.best, h.latest⟩

theorem Sound.addVersion (h : c.Sound L) (hx : x.Fits L c.places) :
    (c.addVersion x).Sound L := by
  refine ⟨h.places, h.bottom, fun y hy => ?_, h.best, h.latest⟩
  rcases Array.mem_push.mp hy with hy | rfl
  · exact h.versions y hy
  · exact hx

theorem head?_setVersion (c : Contest) (v : Nat) (x : Version) (u : Nat) :
    (c.setVersion v x).head? u =
      if v = u ∧ u < c.versions.size then some x.head else c.head? u := by
  rw [head?, head?, setVersion, Array.getElem?_setIfInBounds]
  by_cases hv : v = u
  · by_cases hu : u < c.versions.size
    · rw [if_pos hv, if_pos (hv ▸ hu), if_pos ⟨hv, hu⟩, Option.map_some]
    · rw [if_pos hv, if_neg (hv ▸ hu), if_neg (fun h => hu h.2), Array.getElem?_eq_none (by omega)]
  · rw [if_neg hv, if_neg fun h => hv h.1]

theorem head?_setVersion_of_head (hx : x.head = (c.version v).head) (u : Nat) :
    (c.setVersion v x).head? u = c.head? u := by
  rw [head?_setVersion]
  split_ifs with hu
  · obtain ⟨rfl, hlt⟩ := hu
    rw [hx, head?, version, Array.getElem?_eq_getElem hlt]
    rfl
  · rfl

theorem head?_addVersion (c : Contest) (x : Version) (u : Nat) :
    (c.addVersion x).head? u = if u = c.versions.size then some x.head else c.head? u := by
  rw [head?, head?, addVersion, Array.getElem?_push]
  split_ifs <;> rfl

theorem head?_removeVersion (c : Contest) (v u : Nat) :
    (c.removeVersion v).head? u = if u < v then c.head? u else c.head? (u + 1) := by
  rw [removeVersion, head?, head?, head?, Array.eraseIdxIfInBounds]
  split_ifs with hv hu hu
  · rw [Array.getElem?_eraseIdx_of_lt hv hu]
  · rw [Array.getElem?_eraseIdx_of_ge hv (by omega)]
  · rfl
  · have hsize : c.versions.size ≤ u := by omega
    rw [Array.getElem?_eq_none hsize, Array.getElem?_eq_none (Nat.le_succ_of_le hsize)]

theorem size_of_heads (h : ∀ u, c'.head? u = c.head? u ∨ c'.head? u = c.head? (u + 1) ∨
    (c'.head? u).isSome = true) : c.versions.size - 1 ≤ c'.versions.size := by
  refine Nat.le_of_not_lt fun hlt => ?_
  have hnone : ¬ (c'.head? c'.versions.size).isSome = true := by
    rw [head?_isSome]
    omega
  have hsome : ∀ u < c.versions.size, (c.head? u).isSome = true := fun u => head?_isSome.mpr
  rcases h c'.versions.size with hu | hu | hu
  · exact hnone (hu ▸ hsome _ (by omega))
  · exact hnone (hu ▸ hsome _ (by omega))
  · exact hnone hu

theorem IsAt.of_head {u : Nat} (h : c.IsAt v a) (hc : c.Sound L) (hg : c.places.Grows L c'.places)
    (hhead : c'.head? u = c.head? v) : c'.IsAt u a := by
  have hu := hhead.trans h.head
  obtain ⟨-, htop, -⟩ := version_of_head hu
  refine ⟨htop.symm ▸ hu, ?_⟩
  show (c'.places.place (c'.version u).top).mark.offset = a
  rw [htop, hg.mark _ (hc.version v).top]
  exact h.offset

theorem IsAt.extends (h : c.IsAt v a) (hc : c.Sound L) (he : c.Extends L n c') (hv : v < n) :
    c'.IsAt v a :=
  h.of_head hc he.grows (he.heads v hv)

theorem Extends.stand (he : c.Extends L n c') (hc : c.Sound L) (hv : v < n) :
    (c'.top v).stand = (c.top v).stand := by
  have htop : (c'.version v).top = (c.version v).top := version_top_of_head (he.heads v hv)
  show (c'.places.place (c'.version v).top).stand = (c.places.place (c.version v).top).stand
  rw [htop, he.grows.stand (hc.version v).top]

theorem Extends.mark (he : c.Extends L n c') (hc : c.Sound L) (hv : v < n) :
    (c'.top v).mark = (c.top v).mark := by
  show (c'.places.place (c'.version v).top).mark = (c.places.place (c.version v).top).mark
  rw [version_top_of_head (he.heads v hv), he.grows.mark _ (hc.version v).top]

theorem IsAt.status (h : c.IsAt v a) : (c.version v).status = .active := (version_of_head h.head).2.2

theorem IsAt.isOpen (h : c.IsAt v a) (hc : c.Sound L) : c.places.Open L (c.version v).top :=
  (hc.version v).isOpen (by rw [h.status]; rfl)

theorem IsAt.lt (h : c.IsAt v a) : v < c.versions.size :=
  head?_isSome.mp (by rw [h.head]; rfl)

theorem Sound.addVersion_isAt (h : c.Sound L) (hx : x.status = .active)
    (hopen : c.places.Open L x.top) :
    c.Extends L c.versions.size (c.addVersion x) ∧
      (c.addVersion x).IsAt c.versions.size (c.places.place x.top).mark.offset ∧
      (c.addVersion x).top c.versions.size = c.places.place x.top := by
  have hsound := h.addVersion (x := x) ⟨hopen.lt, fun _ => hopen, fun t ht => by simp [hx] at ht⟩
  have hhead := (head?_addVersion c x c.versions.size).trans (if_pos rfl)
  obtain ⟨-, htop, hstatus⟩ := version_of_head hhead
  have hplace : (c.addVersion x).top c.versions.size = c.places.place x.top := by
    show c.places.place _ = _
    rw [htop]
  refine ⟨⟨hsound, .refl L _, fun u hu => ?_⟩, ⟨?_, ?_⟩, hplace⟩
  · rw [head?_addVersion, if_neg (by omega)]
  · rw [hhead, htop, ← hx]
    rfl
  · rw [offset, hplace]

theorem Sound.setVersion_isAt (h : c.Sound L) (hv : v < c.versions.size) (hx : x.status = .active)
    (hopen : c.places.Open L x.top) :
    (c.setVersion v x).Sound L ∧
      (c.setVersion v x).IsAt v (c.places.place x.top).mark.offset ∧
      (c.setVersion v x).top v = c.places.place x.top := by
  have hhead := (head?_setVersion c v x v).trans (if_pos ⟨rfl, hv⟩)
  obtain ⟨-, htop, -⟩ := version_of_head hhead
  have hplace : (c.setVersion v x).top v = c.places.place x.top := by
    show c.places.place _ = _
    rw [htop]
  refine ⟨h.setVersion ⟨hopen.lt, fun _ => hopen, fun t ht => by simp [hx] at ht⟩ v,
    ⟨?_, ?_⟩, hplace⟩
  · rw [hhead, htop, ← hx]
    rfl
  · rw [offset, hplace]

theorem head?_push (c : Contest) (v : Nat) (tree? : Option Tree) (q : State) (u : Nat) :
    (c.push v tree? q).head? u = if v = u ∧ u < c.versions.size then
      some (c.places.size, (c.version v).status) else c.head? u :=
  head?_setVersion c v _ u

theorem size_push (c : Contest) (v : Nat) (tree? : Option Tree) (q : State) :
    (c.push v tree? q).versions.size = c.versions.size :=
  Array.size_setIfInBounds

theorem head?_push_of_ne {u : Nat} (h : u ≠ v) (tree? : Option Tree) (q : State) :
    (c.push v tree? q).head? u = c.head? u := by
  rw [head?_push, if_neg (by omega)]

theorem head?_pushAll_of_ne {u : Nat} (h : u ≠ v) (es : List Tree) (q : State) :
    (c.pushAll v es q).head? u = c.head? u := by
  induction es generalizing c with
  | nil => rfl
  | cons t es ih => exact ih.trans (head?_push_of_ne h _ q)

theorem size_pushAll (c : Contest) (v : Nat) (es : List Tree) (q : State) :
    (c.pushAll v es q).versions.size = c.versions.size := by
  induction es generalizing c with
  | nil => rfl
  | cons t es ih => exact (ih _).trans (size_push ..)

theorem place_push (c : Contest) (v : Nat) (tree? : Option Tree) (q : State) :
    (c.push v tree? q).places.place c.places.size = c.places.above (c.version v).top tree? q :=
  Stacks.place_push_size _ _

theorem Sound.push {tree? : Option Tree} {q : State} (h : c.Sound L) (hv : c.IsAt v a)
    (hjoins : Joins L.src (c.top v).stand ⟨q, ((tree?.map (·.stop)).getD (c.top v).mark).offset⟩ tree?)
    (hleads : Leads L (c.top v).stand ⟨q, ((tree?.map (·.stop)).getD (c.top v).mark).offset⟩ tree?) :
    c.Extends L v (c.push v tree? q) := by
  have hopen := hv.isOpen h
  have hmark : (c.places.above (c.version v).top tree? q).mark.On L.src := by
    cases tree? with
    | none => exact h.on v
    | some t => exact hjoins.sound.stop
  have hplaces := Stacks.extends_push h.places hmark rfl hopen.lt hjoins
  have hnew : (c.push v tree? q).places.Open L c.places.size := by
    refine Stacks.open_of_links (by simp [Contest.push]) ?_
    rw [place_push]
    intro l hl
    obtain rfl := List.mem_singleton.mp hl
    refine ⟨hplaces.opens _ hopen, ?_⟩
    have hbelow := hplaces.stand hopen.lt
    exact hbelow.symm ▸ hleads
  refine ⟨⟨hplaces.sound, hplaces.opens 0 h.bottom, fun x hx => ?_, h.best, h.latest⟩,
    hplaces.toGrows, fun u hu => ?_⟩
  · rcases Array.mem_or_eq_of_mem_setIfInBounds hx with hx | rfl
    · exact (h.versions x hx).grows hplaces.toGrows
    · refine ⟨hnew.lt, fun _ => hnew, fun t ht => ?_⟩
      rw [show _ = Status.active from hv.status] at ht
      cases ht
  · rw [head?_push, if_neg (by omega)]

theorem IsAt.push (hv : c.IsAt v a) (tree? : Option Tree) (q : State) :
    (c.push v tree? q).IsAt v ((tree?.map (·.stop)).getD (c.top v).mark).offset ∧
      ((c.push v tree? q).top v).state = q := by
  have hhead := head?_push c v tree? q v
  rw [if_pos ⟨rfl, hv.lt⟩, hv.status] at hhead
  obtain ⟨-, htop, -⟩ := version_of_head hhead
  have hplace : (c.push v tree? q).top v = c.places.above (c.version v).top tree? q := by
    rw [← place_push, ← htop]
    rfl
  exact ⟨⟨htop.symm ▸ hhead, by rw [Contest.offset, hplace]; rfl⟩, by rw [hplace]; rfl⟩

theorem Sound.pushAll {es : List Tree} {q : State} {b : Nat} (h : c.Sound L) (hv : c.IsAt v a)
    (hstate : (c.top v).state = q) (hes : Way L ⟨q, a⟩ es 0 ⟨q, b⟩) :
    c.Extends L v (c.pushAll v es q) ∧ (c.pushAll v es q).IsAt v b := by
  induction es generalizing c a with
  | nil =>
    cases hes
    exact ⟨.refl h v, hv⟩
  | cons t es ih =>
    cases hes with
    | @extra _ m _ _ _ _ hrung hextra hm hes =>
      have hstand : (c.top v).stand = ⟨q, a⟩ := by
        rw [← hstate, ← hv.offset]
        rfl
      have hm' : m = ⟨q, t.stop.offset⟩ := by rw [hrung.stop, ← show m.state = q from hm]
      have hfirst : c.Extends L v (c.push v (some t) q) := by
        refine h.push hv ?_ ?_ <;> rw [hstand]
        · exact ⟨hrung.sound, hrung.start, rfl, hrung.specs, hrung.filled⟩
        · exact ⟨.inr ⟨hextra, rfl⟩, hrung.keeps⟩
      obtain ⟨hat, hq⟩ := hv.push (some t) q
      obtain ⟨hrest, hend⟩ := ih hfirst.sound hat hq (hm' ▸ hes)
      exact ⟨hfirst.trans hrest, hend⟩

theorem canMerge_iff : c.canMerge v w = true ↔ (c.version v).status = .active ∧
    (c.version w).status = .active ∧
      c.places.joinable (c.version v).top (c.version w).top = true := by
  have hactive : ∀ st : Status, st.isActive = true ↔ st = .active := by
    intro st
    cases st <;> simp [Status.isActive]
  simp only [canMerge, Bool.and_eq_true, hactive, and_assoc]

theorem Sound.merge (h : c.Sound L) (hm : c.canMerge v w = true) :
    (c.merge v w).Sound L ∧ c.places.Grows L (c.merge v w).places := by
  obtain ⟨hv, hw, hjoin⟩ := canMerge_iff.mp hm
  have hplaces : c.places.Extends L (c.merge v w).places :=
    Stacks.join_extends h.places ((h.version v).isOpen (by rw [hv]; rfl))
      ((h.version w).isOpen (by rw [hw]; rfl)) (Stacks.joinable_stand hjoin)
  refine ⟨⟨hplaces.sound, hplaces.opens 0 h.bottom, fun x hx => ?_, h.best, h.latest⟩,
    hplaces.toGrows⟩
  rcases Array.mem_or_eq_of_mem_setIfInBounds (mem_of_mem_eraseIdx hx) with hx | rfl
  · exact (h.versions x hx).grows hplaces.toGrows
  · exact ((h.version v).grows hplaces.toGrows).of_head rfl

theorem head?_merge (c : Contest) (v w u : Nat) :
    (c.merge v w).head? u = if u < w then c.head? u else c.head? (u + 1) := by
  have hhead := fun settled => head?_setVersion_of_head (c := c) (v := v)
    (x := { c.version v with settled }) rfl
  rw [← hhead, ← hhead, ← head?_removeVersion]
  rfl

/-- A phrase above a place, and extras behind it that reach to the offset `a`. -/
structure Puts (L : Law) (b : Stand) (p : Phrase) (a : Nat) (x : Tree × List Tree) : Prop where
  label : x.1.label = .phrase p
  extra : x.1.extra = false
  missing : x.1.missing = false
  rung : Rung L b ⟨after b.state (.phrase p), x.1.stop.offset⟩ x.1
  extras : Way L ⟨after b.state (.phrase p), x.1.stop.offset⟩ x.2 0
    ⟨after b.state (.phrase p), a⟩

theorem puts_way [L.Stable] {b s : Stand} {r : Rule} {u : Symbol} {here : Mark} {way : List Tree}
    (hr : r ∈ rulesBefore s.state u) (hhere : here.On L.src) (hoffset : here.offset = b.offset)
    (hfront : L.front ≤ s.offset) (hway : Way L b way r.parts s)
    (hfirst : ∀ t ∈ way.head?, t.extra = false) :
    Puts L b r.phrase s.offset
      (.node (.phrase r.phrase) (splitExtras way).1 here, (splitExtras way).2) := by
  obtain ⟨a, hrung, hextras⟩ := hway.form hr hfirst hhere hoffset hfront
  obtain rfl : _ = a := hrung.stop
  exact ⟨rfl, rfl, rfl, hrung, hextras⟩

def Offers (L : Law) (r : Rule) (s b : Stand) (ways : List (List Tree)) : Prop :=
  ways ≠ [] ∧ ∀ way ∈ ways, Way L b way r.parts s ∧ ∀ t ∈ way.head?, t.extra = false

theorem puts_bestWay [L.Stable] {b s : Stand} {r : Rule} {u : Symbol} {here : Mark} {ways : List (List Tree)}
    (hr : r ∈ rulesBefore s.state u) (hhere : here.On L.src) (hoffset : here.offset = b.offset)
    (hfront : L.front ≤ s.offset) (hways : Offers L r s b ways) :
    Puts L b r.phrase s.offset (bestWay (.phrase r.phrase) here ways) := by
  cases ways with
  | nil => exact absurd rfl hways.1
  | cons way ways =>
    obtain ⟨hway, hrest⟩ := List.forall_mem_cons.mp hways.2
    rw [bestWay]
    refine List.foldlRecOn (motive := Puts L b r.phrase s.offset) ways _ ?_ ?_
    · exact puts_way hr hhere hoffset hfront hway.1 hway.2
    · rintro ⟨tree, extras⟩ hbest way hmem
      dsimp only
      split_ifs
      · exact puts_way hr hhere hoffset hfront (hrest way hmem).1 (hrest way hmem).2
      · exact hbest

theorem Puts.push [L.Stable] {b : Nat} {p : Phrase} {x : Tree × List Tree} (h : c.Sound L)
    (hw : c.IsAt w b) (hx : Puts L (c.top w).stand p a x) (rank : Int) :
    c.Extends L w (c.push w (some { x.1 with rank }) (after (c.top w).state (.phrase p))) := by
  have hrung := hx.rung.ranked rank
  have hpart : IsPart (c.top w).state (after (c.top w).state (.phrase p)) { x.1 with rank } := by
    refine ⟨hx.extra, ?_, ?_⟩
    · rw [hx.label]
    · simp [hx.missing]
  exact h.push hw hrung.toSpans (.part hpart hrung.keeps)

/-- A new version either stays, or it is merged into one before it. -/
def Follows (w : Nat) (c c' : Contest) : Prop := ∀ k, c'.head? (w + k) = c.head? (w + 1 + k)

theorem mergeInto_extends (h : c.Sound L) (others : List Nat) (w : Nat) :
    c.Extends L w (c.mergeInto others w) ∧ (c.mergeInto others w = c ∨
      Follows w c (c.mergeInto others w)) := by
  unfold mergeInto partner?
  split
  · rename_i v hv
    have hm := List.find?_some hv
    obtain ⟨hsound, hgrows⟩ := h.merge hm
    refine ⟨⟨hsound, hgrows, fun u hu => ?_⟩, .inr fun k => ?_⟩
    · rw [head?_merge, if_pos hu]
    · rw [head?_merge, if_neg (by omega)]
      congr 1
      omega
  · exact ⟨.refl h w, .inl rfl⟩

/-- Of the new versions of a reduction the first one gets its phrase. It comes to the offset that the
parts of the phrase come to. -/
theorem putPhrase_extends [L.Stable] {r : Rule} {u : Symbol} {s : Stand} {ways : List (List Tree)} {b : Nat}
    (h : c.Sound L) (hw : c.IsAt w b) (hr : r ∈ rulesBefore s.state u) (hfront : L.front ≤ s.offset)
    (hways : Offers L r s (c.top w).stand ways) :
    c.Extends L w (c.putPhrase v w r ways) ∧
      ((c.putPhrase v w r ways).IsAt w s.offset ∧
        (∀ k, (c.putPhrase v w r ways).head? (w + 1 + k) = c.head? (w + 1 + k)) ∨
      Follows w c (c.putPhrase v w r ways)) := by
  have hputs := puts_bestWay hr (h.on w) rfl hfront hways
  unfold putPhrase
  dsimp only
  generalize bestWay (.phrase r.phrase) (c.top w).mark ways = x at hputs
  have hpush := hputs.push h hw (x.1.rank + r.rank)
  obtain ⟨hat, hstate⟩ := hw.push (some { x.1 with rank := x.1.rank + r.rank })
    (after (c.top w).state (.phrase r.phrase))
  obtain ⟨hextras, hend⟩ := hpush.sound.pushAll hat hstate hputs.extras
  have hadded := hpush.trans hextras
  have hafter : Automaton.afterPhrase (c.top w).state r.phrase =
      after (c.top w).state (.phrase r.phrase) := by rw [after]
  rw [hafter]
  have hlater : ∀ k, (((c.push w (some { x.1 with rank := x.1.rank + r.rank })
      (after (c.top w).state (.phrase r.phrase))).pushAll w x.2
        (after (c.top w).state (.phrase r.phrase))).head? (w + 1 + k)) = c.head? (w + 1 + k) :=
    fun k => (head?_pushAll_of_ne (by omega) _ _).trans (head?_push_of_ne (by omega) _ _)
  obtain ⟨hmerged, hsame | hfollows⟩ :=
    mergeInto_extends hadded.sound ((List.range w).filter (· != v)) w
  · rw [hsame]
    exact ⟨hadded, .inl ⟨hend, hlater⟩⟩
  · exact ⟨hadded.trans hmerged, .inr fun k => (hfollows k).trans (hlater k)⟩

theorem lt_size_of_head {i : Nat} {st : Status} (h : c.head? v = some (i, st)) :
    v < c.versions.size :=
  head?_isSome.mp (by rw [h]; rfl)

theorem size_of_follows (h : Follows w c c') (hw : w < c.versions.size) :
    c'.versions.size < c.versions.size := by
  refine Nat.lt_of_not_le fun hle => ?_
  have hsome : (c'.head? (w + (c.versions.size - 1 - w))).isSome = true :=
    head?_isSome.mpr (by omega)
  rw [h, head?_isSome] at hsome
  omega

theorem size_le_of_heads (hw : w < c'.versions.size)
    (h : ∀ k, c'.head? (w + 1 + k) = c.head? (w + 1 + k)) : c.versions.size ≤ c'.versions.size := by
  refine Nat.le_of_not_lt fun hlt => ?_
  have hsome : (c.head? (w + 1 + (c'.versions.size - w - 1))).isSome = true :=
    head?_isSome.mpr (by omega)
  rw [← h, head?_isSome] at hsome
  omega

/-- While the new versions of a reduction get their phrases: those from `first` to before `w` have
got theirs, and those from `w` on stand at the places of the slices that are left. -/
structure Filling (L : Law) (r : Rule) (s : Stand) (first : Nat) (slices : List Slice) (w : Nat)
    (c : Contest) : Prop where
  sound : c.Sound L
  first_le : first ≤ w
  done : ∀ u, first ≤ u → u < w → c.IsAt u s.offset
  heads : ∀ k, c.head? (w + k) = slices[k]?.map fun slice => (slice.place, .active)
  offers : ∀ slice ∈ slices, Offers L r s (c.places.place slice.place).stand slice.ways

namespace Filling

variable {first : Nat} {r : Rule} {s : Stand} {slice : Slice} {slices : List Slice}

theorem head (h : Filling L r s first (slice :: slices) w c) :
    c.head? w = some (slice.place, .active) := h.heads 0

/-- The version whose turn it is, and what lies above the place where it stands. -/
theorem isAt (h : Filling L r s first (slice :: slices) w c) :
    c.IsAt w (c.offset w) ∧ Offers L r s (c.top w).stand slice.ways := by
  obtain ⟨-, htop, -⟩ := version_of_head h.head
  refine ⟨⟨htop.symm ▸ h.head, rfl⟩, ?_⟩
  have hstand : (c.top w).stand = (c.places.place slice.place).stand := by rw [← htop]; rfl
  exact hstand ▸ h.offers slice List.mem_cons_self

theorem step {w' : Nat} (h : Filling L r s first (slice :: slices) w c) (he : c.Extends L w c')
    (hw : w ≤ w') (hdone : ∀ u, w ≤ u → u < w' → c'.IsAt u s.offset)
    (hheads : ∀ k, c'.head? (w' + k) = c.head? (w + 1 + k)) :
    Filling L r s first slices w' c' := by
  have hrest : ∀ k, c.head? (w + 1 + k) = slices[k]?.map fun slice => (slice.place, .active) := by
    intro k
    rw [Nat.add_right_comm, Nat.add_assoc]
    exact h.heads (k + 1)
  refine ⟨he.sound, Nat.le_trans h.first_le hw, fun u hu hlt => ?_, fun k => (hheads k).trans (hrest k),
    fun slice hmem => ?_⟩
  · by_cases huw : u < w
    · exact (h.done u hu huw).extends h.sound he huw
    · exact hdone u (Nat.le_of_not_lt huw) hlt
  · obtain ⟨k, hk⟩ := List.getElem?_of_mem hmem
    have hhead := hrest k
    rw [hk] at hhead
    obtain ⟨-, htop, -⟩ := version_of_head hhead
    rw [he.grows.stand (htop ▸ (h.sound.version _).top)]
    exact h.offers slice (List.mem_cons_of_mem _ hmem)

theorem removeVersion (h : Filling L r s first (slice :: slices) w c) :
    c.Extends L w (c.removeVersion w) ∧ Filling L r s first slices w (c.removeVersion w) := by
  have he : c.Extends L w (c.removeVersion w) :=
    ⟨h.sound.removeVersion w, .refl L _, fun u hu => by rw [head?_removeVersion, if_pos hu]⟩
  refine ⟨he, h.step he (Nat.le_refl _) (fun u hu hlt => absurd hlt (by omega)) fun k => ?_⟩
  rw [head?_removeVersion, if_neg (by omega), Nat.add_right_comm]

theorem putPhrase [L.Stable] {u : Symbol} (h : Filling L r s first (slice :: slices) w c)
    (hr : r ∈ rulesBefore s.state u) (hfront : L.front ≤ s.offset) (v : Nat) :
    c.Extends L w (c.putPhrase v w r slice.ways) ∧ Filling L r s first slices
      (if (c.putPhrase v w r slice.ways).versions.size < c.versions.size then w else w + 1)
      (c.putPhrase v w r slice.ways) := by
  obtain ⟨hat, hslice⟩ := h.isAt
  obtain ⟨he, ⟨hnew, hlater⟩ | hfollows⟩ := putPhrase_extends (v := v) h.sound hat hr hfront hslice
  · have hsize := size_le_of_heads hnew.lt hlater
    rw [if_neg (by omega)]
    refine ⟨he, h.step he (Nat.le_succ w) (fun u hu hlt => ?_) hlater⟩
    obtain rfl : u = w := by omega
    exact hnew
  · rw [if_pos (size_of_follows hfollows (lt_size_of_head h.head))]
    exact ⟨he, h.step he (Nat.le_refl _) (fun u hu hlt => absurd hlt (by omega)) hfollows⟩

theorem putPhrases [L.Stable] {u : Symbol} (h : Filling L r s first slices w c)
    (hr : r ∈ rulesBefore s.state u) (hfront : L.front ≤ s.offset) (v limit : Nat) :
    c.Extends L first (putPhrases v limit r slices w c) ∧
      ∀ u, first ≤ u → u < (putPhrases v limit r slices w c).versions.size →
        (Contest.putPhrases v limit r slices w c).IsAt u s.offset := by
  induction slices generalizing w c with
  | nil =>
    refine ⟨.refl h.sound first, fun u hu hlt => h.done u hu ?_⟩
    have hlt : u < c.versions.size := hlt
    have hnone : c.head? w = none := h.heads 0
    have hsize : ¬ w < c.versions.size := fun hw => by simp [← head?_isSome, hnone] at hw
    omega
  | cons slice slices ih =>
    rw [Contest.putPhrases]
    dsimp only
    split
    · obtain ⟨he, hnext⟩ := h.removeVersion
      obtain ⟨hext, hall⟩ := ih hnext
      exact ⟨(he.mono h.first_le).trans hext, hall⟩
    · obtain ⟨he, hnext⟩ := h.putPhrase hr hfront v
      obtain ⟨hext, hall⟩ := ih hnext
      exact ⟨(he.mono h.first_le).trans hext, hall⟩

end Filling

/-- All versions stay where they are, and all new ones come to the offset `a`. -/
structure Adds (L : Law) (a : Nat) (c c' : Contest) : Prop
    extends Extends L c.versions.size c c' where
  added : ∀ u, c.versions.size ≤ u → u < c'.versions.size → c'.IsAt u a

theorem Adds.refl (h : c.Sound L) : c.Adds L a c :=
  ⟨.refl h _, fun u hu hlt => absurd hlt (by omega)⟩

theorem Adds.size (h : c.Adds L a c') : c.versions.size ≤ c'.versions.size :=
  h.toExtends.size (Nat.le_refl _)

theorem Adds.trans (h : c.Adds L a c') (h' : c'.Adds L a c'') : c.Adds L a c'' := by
  refine ⟨h.toExtends.trans (h'.toExtends.mono h.size), fun u hu hlt => ?_⟩
  by_cases hu' : u < c'.versions.size
  · exact (h.added u hu hu').extends h.sound h'.toExtends hu'
  · exact h'.added u (by omega) hlt

theorem IsAt.adds {b : Nat} (h : c.IsAt v b) (hc : c.Sound L) (ha : c.Adds L a c') :
    c'.IsAt v b :=
  h.extends hc ha.toExtends h.lt

def withSlices (c : Contest) (settled : Nat) (slices : List Slice) : Contest :=
  slices.foldl (fun c s => c.addVersion { top := s.place, settled }) c

theorem withSlices_sound {slices : List Slice} (h : c.Sound L) (settled : Nat)
    (hslices : ∀ slice ∈ slices, c.places.Open L slice.place) :
    (c.withSlices settled slices).Sound L ∧ (c.withSlices settled slices).places = c.places ∧
      ∀ u, (c.withSlices settled slices).head? u = if u < c.versions.size then c.head? u
        else slices[u - c.versions.size]?.map fun slice => (slice.place, .active) := by
  induction slices generalizing c with
  | nil =>
    refine ⟨h, rfl, fun u => ?_⟩
    split_ifs with hu
    · rfl
    · simp [withSlices, head?, Nat.le_of_not_lt hu]
  | cons slice slices ih =>
    obtain ⟨hslice, hrest⟩ := List.forall_mem_cons.mp hslices
    have hadded := h.addVersion (x := { top := slice.place, settled })
      ⟨hslice.lt, fun _ => hslice, nofun⟩
    obtain ⟨hsound, hplaces, hheads⟩ := ih hadded hrest
    refine ⟨hsound, hplaces, fun u => (hheads u).trans ?_⟩
    have hsize : (c.addVersion { top := slice.place, settled }).versions.size =
        c.versions.size + 1 := Array.size_push _
    rw [hsize, head?_addVersion]
    rcases Nat.lt_trichotomy u c.versions.size with hu | rfl | hu
    · rw [if_pos (by omega), if_neg (by omega), if_pos hu]
    · simp [Version.head]
    · rw [if_neg (by omega), if_neg (by omega), ← Nat.sub_sub,
        show u - c.versions.size = u - c.versions.size - 1 + 1 by omega]
      rfl

theorem Sound.filling {r : Rule} {u : Symbol} (h : c.Sound L) (hv : c.IsAt v a)
    (hr : r ∈ rulesBefore (c.top v).state u) :
    c.Extends L c.versions.size (c.withSlices (c.version v).settled
        (c.places.slices (c.version v).top r.parts)) ∧
      Filling L r (c.top v).stand c.versions.size (c.places.slices (c.version v).top r.parts)
        c.versions.size (c.withSlices (c.version v).settled
          (c.places.slices (c.version v).top r.parts)) := by
  have hslices := Stacks.slices_sound h.places (hv.isOpen h) r.parts
  have hlost : (c.top v).state ≠ lost := by
    intro hs
    rw [hs, Automaton.rulesBefore_lost] at hr
    cases hr
  have hopens : ∀ slice ∈ c.places.slices (c.version v).top r.parts,
      c.places.Open L slice.place := by
    intro slice hmem
    obtain ⟨hne, hways⟩ := hslices slice hmem
    obtain ⟨way, hway⟩ := List.exists_mem_of_ne_nil _ hne
    exact (hways way hway).isOpen
  obtain ⟨hsound, hplaces, hheads⟩ := withSlices_sound h (c.version v).settled hopens
  have hgrows : c.places.Grows L (c.withSlices (c.version v).settled
      (c.places.slices (c.version v).top r.parts)).places := by
    rw [hplaces]
    exact .refl L _
  refine ⟨⟨hsound, hgrows, fun u hu => by rw [hheads, if_pos hu]⟩, hsound, Nat.le_refl _,
    fun u hu hlt => absurd hlt (by omega), fun k => ?_, fun slice hmem => ?_⟩
  · rw [hheads, if_neg (by omega), Nat.add_sub_cancel_left]
  · obtain ⟨hne, hways⟩ := hslices slice hmem
    rw [hplaces]
    exact ⟨hne, fun way hway => ⟨(hways way hway).way, (hways way hway).first hlost⟩⟩

theorem reduce_adds [L.Stable] {r : Rule} {u : Symbol} (h : c.Sound L) (hv : c.IsAt v a) (ha : L.front ≤ a)
    (hr : r ∈ rulesBefore (c.top v).state u) :
    c.Adds L a (c.reduce v r).1 ∧
      ∀ w ∈ (c.reduce v r).2, c.versions.size ≤ w ∧ w < (c.reduce v r).1.versions.size := by
  obtain ⟨hslices, hfilling⟩ := h.filling hv hr
  have hfront : L.front ≤ (c.top v).stand.offset := Nat.le_trans ha (Nat.le_of_eq hv.offset.symm)
  have hput := fun limit => And.imp_left hslices.trans (hfilling.putPhrases hr hfront v limit)
  refine ⟨⟨(hput _).1, hv.offset ▸ (hput _).2⟩, fun w hw => ?_⟩
  unfold reduce at hw ⊢
  dsimp only at hw ⊢
  split_ifs at hw with hlt
  · cases hw
    exact ⟨Nat.le_refl _, hlt⟩
  · cases hw

theorem reduceAll_adds [L.Stable] {rules : List Rule} {latest : Option Nat} {m : Nat} (h : c.Sound L)
    (hv : c.IsAt v a) (ha : L.front ≤ a)
    (hrules : ∀ r ∈ rules, ∃ u, r ∈ rulesBefore (c.top v).state u)
    (hm : m ≤ c.versions.size) (hlatest : ∀ w ∈ latest, m ≤ w ∧ w < c.versions.size) :
    c.Adds L a (reduceAll v rules c latest).1 ∧ ∀ w ∈ (reduceAll v rules c latest).2,
      m ≤ w ∧ w < (reduceAll v rules c latest).1.versions.size := by
  induction rules generalizing c latest with
  | nil => exact ⟨.refl h, hlatest⟩
  | cons r rules ih =>
    obtain ⟨⟨u, hr⟩, hrest⟩ := List.forall_mem_cons.mp hrules
    obtain ⟨hadds, hnew⟩ := reduce_adds h hv ha hr
    have hstate : ((c.reduce v r).1.top v).state = (c.top v).state :=
      congrArg Stand.state (hadds.stand h hv.lt)
    have hlatest' : ∀ w ∈ (c.reduce v r).2.or latest,
        m ≤ w ∧ w < (c.reduce v r).1.versions.size := by
      intro w hw
      have hsize := hadds.size
      rcases Option.or_eq_some_iff.mp hw with hw | ⟨-, hw⟩
      · have := hnew w hw
        omega
      · have := hlatest w hw
        omega
    obtain ⟨hrules, hfound⟩ := ih hadds.sound (hv.adds h hadds) (hstate ▸ hrest)
      (Nat.le_trans hm hadds.size) hlatest'
    exact ⟨hadds.trans hrules, hfound⟩

theorem Sound.moveVersion (h : c.Sound L) (source target : Nat) :
    (c.moveVersion source target).Sound L := by
  unfold Contest.moveVersion
  refine (h.setVersion ?_ target).removeVersion source
  exact (h.version source).of_head rfl

theorem head?_moveVersion {source target : Nat} (hlt : target < source)
    (hsource : source < c.versions.size) (u : Nat) :
    (c.moveVersion source target).head? u = if u = target then c.head? source
      else if u < source then c.head? u else c.head? (u + 1) := by
  have hhead : c.head? source = some (c.version source).head := by
    rw [head?, Contest.version, Array.getElem?_eq_getElem hsource]
    rfl
  unfold Contest.moveVersion
  dsimp only
  rw [head?_removeVersion, head?_setVersion, head?_setVersion, hhead]
  by_cases hu : u = target
  · subst hu
    rw [if_pos hlt, if_pos ⟨rfl, by omega⟩, if_pos rfl]
    rfl
  · rw [if_neg (c := target = u ∧ _) (by omega), if_neg hu]
    split_ifs with hsource' hmoved
    · rfl
    · omega
    · rfl

/-- The versions that go on have come to the offset `a` at least. -/
def Ahead (a : Nat) (c : Contest) : Prop :=
  ∀ u x, c.head? u = some x → x.2.isHalted = false → a ≤ (c.places.place x.1).mark.offset

namespace Ahead

theorem of_heads (h : c.Ahead a) (hc : c.Sound L) (hg : c.places.Grows L c'.places)
    (hheads : ∀ u, ∃ w, c'.head? u = c.head? w) : c'.Ahead a := by
  intro u x hx hstatus
  obtain ⟨w, hw⟩ := hheads u
  rw [hw] at hx
  obtain ⟨-, htop, -⟩ := version_of_head hx
  rw [hg.mark _ (htop ▸ (hc.version w).top)]
  exact h w x hx hstatus

theorem setVersion (h : c.Ahead a)
    (hx : x.status.isHalted = false → a ≤ (c.places.place x.top).mark.offset) (v : Nat) :
    (c.setVersion v x).Ahead a := by
  intro u y hy hstatus
  rw [head?_setVersion] at hy
  split_ifs at hy
  · cases hy
    exact hx hstatus
  · exact h u y hy hstatus

theorem addVersion (h : c.Ahead a) (hx : a ≤ (c.places.place x.top).mark.offset) :
    (c.addVersion x).Ahead a := by
  intro u y hy hstatus
  rw [head?_addVersion] at hy
  split_ifs at hy
  · cases hy
    exact hx
  · exact h u y hy hstatus

theorem removeVersion (h : c.Ahead a) (v : Nat) : (c.removeVersion v).Ahead a := by
  intro u y hy hstatus
  rw [head?_removeVersion] at hy
  split_ifs at hy
  · exact h u y hy hstatus
  · exact h (u + 1) y hy hstatus

theorem adds {b : Nat} (h : c.Ahead a) (hc : c.Sound L) (hadds : c.Adds L b c') (hab : a ≤ b) :
    c'.Ahead a := by
  intro u x hx hstatus
  by_cases hu : u < c.versions.size
  · have hhead := (hadds.heads u hu).symm.trans hx
    obtain ⟨-, htop, -⟩ := version_of_head hhead
    rw [hadds.grows.mark _ (htop ▸ (hc.version u).top)]
    exact h u x hhead hstatus
  · have hat := hadds.added u (Nat.le_of_not_lt hu) (lt_size_of_head hx)
    obtain rfl : _ = x := Option.some_inj.mp (hat.head.symm.trans hx)
    exact Nat.le_trans hab (Nat.le_of_eq hat.offset.symm)

theorem but {b : Nat} (h : c.Ahead a) (hc : c.Sound L) (hg : c.places.Grows L c'.places)
    (hothers : ∀ u ≠ v, c'.head? u = c.head? u) (hv : c'.IsAt v b) (hab : a ≤ b) : c'.Ahead a := by
  intro u x hx hstatus
  by_cases hu : u = v
  · subst hu
    obtain rfl : _ = x := Option.some_inj.mp (hv.head.symm.trans hx)
    exact Nat.le_trans hab (Nat.le_of_eq hv.offset.symm)
  · rw [hothers u hu] at hx
    obtain ⟨-, htop, -⟩ := version_of_head hx
    rw [hg.mark _ (htop ▸ (hc.version u).top)]
    exact h u x hx hstatus

theorem push {b : Nat} {tree? : Option Tree} {q : State} (h : c.Ahead a) (hc : c.Sound L)
    (hv : c.IsAt v b) (hg : c.places.Grows L (c.push v tree? q).places)
    (hle : a ≤ ((tree?.map (·.stop)).getD (c.top v).mark).offset) : (c.push v tree? q).Ahead a :=
  h.but hc hg (fun _ hu => head?_push_of_ne hu tree? q) (hv.push tree? q).1 hle

end Ahead

/-- A reading that fits its source, and of which all versions have come to the front of the law. -/
structure Ready (L : Law) (c : Contest) : Prop extends Sound L c where
  ahead : c.Ahead L.front

theorem Ready.front (h : c.Ready L) (hv : c.IsAt v a) : L.front ≤ a :=
  Nat.le_trans (h.ahead v _ hv.head rfl) (Nat.le_of_eq hv.offset)

theorem Ready.adds (h : c.Ready L) (hadds : c.Adds L a c') (ha : L.front ≤ a) : c'.Ready L :=
  ⟨hadds.sound, h.ahead.adds h.toSound hadds ha⟩

theorem Ready.merge (h : c.Ready L) (hm : c.canMerge v w = true) : (c.merge v w).Ready L := by
  obtain ⟨hsound, hgrows⟩ := h.toSound.merge hm
  refine ⟨hsound, h.ahead.of_heads h.toSound hgrows fun u => ?_⟩
  rw [head?_merge]
  split_ifs
  · exact ⟨u, rfl⟩
  · exact ⟨u + 1, rfl⟩

theorem Ready.moveVersion (h : c.Ready L) (hvw : v < w) (hw : w < c.versions.size) :
    (c.moveVersion w v).Ready L := by
  refine ⟨h.toSound.moveVersion w v, h.ahead.of_heads h.toSound (.refl L _) fun u => ?_⟩
  rw [head?_moveVersion hvw hw]
  split_ifs
  · exact ⟨w, rfl⟩
  · exact ⟨u, rfl⟩
  · exact ⟨u + 1, rfl⟩

theorem Ready.removeVersion (h : c.Ready L) (v : Nat) : (c.removeVersion v).Ready L :=
  ⟨h.toSound.removeVersion v, h.ahead.removeVersion v⟩

theorem Ready.setVersion (h : c.Ready L) (hx : x.head = (c.version v).head) :
    (c.setVersion v x).Ready L :=
  ⟨h.toSound.setVersion ((h.version v).of_head hx) v,
    h.ahead.of_heads h.toSound (.refl L _) fun u => ⟨u, head?_setVersion_of_head hx u⟩⟩

/-- The reading has gone on, and the first `n` versions are where they were; none is behind the front
of the law. -/
structure Proceeds (L : Law) (n : Nat) (c c' : Contest) : Prop extends Extends L n c c' where
  ahead : c'.Ahead L.front

namespace Proceeds

theorem ready (h : c.Proceeds L n c') : c'.Ready L := ⟨h.sound, h.ahead⟩

theorem refl (h : c.Ready L) (n : Nat) : c.Proceeds L n c := ⟨.refl h.toSound n, h.ahead⟩

theorem trans (h : c.Proceeds L n c') (h' : c'.Proceeds L n c'') : c.Proceeds L n c'' :=
  ⟨h.toExtends.trans h'.toExtends, h'.ahead⟩

theorem mono {m : Nat} (h : c.Proceeds L n c') (hm : m ≤ n) : c.Proceeds L m c' :=
  ⟨h.toExtends.mono hm, h.ahead⟩

end Proceeds

end Contest

end ImportGroups.Source
