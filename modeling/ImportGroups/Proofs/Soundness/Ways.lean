import ImportGroups.Proofs.Soundness.Tokens
import ImportGroups.Proofs.Soundness.Transitions

/-!
Ways up a stack.

A way goes from one place of a stack to a place above it, over the trees that were read in between.
What the automaton does on it is known from its zones. So the parts that a rule puts together are the
ones that its phrase asks for, and a tree with an import spec in it stands above a state that may hold
one. More may be asked of the trees on a way by a law, if all that a reader does keeps it.
-/

namespace ImportGroups.Source

open Text (Bytes)
open Automaton (lost rulesBefore Zone HoldsSpecs)

namespace Automaton

def after (s : State) : Label → State
  | .token t => afterSymbol s t
  | .phrase p => afterPhrase s p
  | .skipped | .error => lost

def Zone.labels (z : Zone) : List Label := z.symbols.map .token ++ z.phrases.map .phrase

variable {s : State} {l : Label} {z : Zone}

@[simp] theorem after_lost (l : Label) : after lost l = lost := by
  cases l with
  | token t => exact afterSymbol_lost t
  | phrase p => exact afterPhrase_lost p
  | skipped => rfl
  | error => rfl

theorem after_into (h : after s l ∈ z.states) :
    l ∈ z.labels ∧ ∀ ys ∈ z.sources?, ∃ y ∈ ys, s ∈ y.states := by
  cases l with
  | token t =>
    rw [after] at h
    obtain ⟨ht, hsources⟩ := symbol_into h
    exact ⟨List.mem_append_left _ (List.mem_map_of_mem ht), hsources⟩
  | phrase p =>
    rw [after] at h
    obtain ⟨hp, hsources⟩ := phrase_into h
    exact ⟨List.mem_append_right _ (List.mem_map_of_mem hp), hsources⟩
  | skipped => exact absurd h (lost_not_mem z)
  | error => exact absurd h (lost_not_mem z)

theorem holdsSpecs_of_after (h : HoldsSpecs (after s l)) : HoldsSpecs s := by
  obtain ⟨z, hz, hs⟩ := h
  exact Zone.outer_sources hz (after_into hs).2

end Automaton

open Automaton (after after_into after_lost)

theorem splitExtras_parts (ts : List Tree) :
    (splitExtras ts).1 = (ts.reverse.dropWhile (·.extra)).reverse := by
  have hts : ts = (ts.reverse.dropWhile (·.extra)).reverse ++
      (ts.reverse.takeWhile (·.extra)).reverse := by
    rw [← List.reverse_append, List.takeWhile_append_dropWhile, List.reverse_reverse]
  have hlength := congrArg List.length hts
  rw [List.length_append] at hlength
  unfold splitExtras
  dsimp only
  exact (congrArg (List.take _) hts).trans (List.take_left' (by omega))

theorem splitExtras_append (ts : List Tree) : (splitExtras ts).1 ++ (splitExtras ts).2 = ts := by
  rw [splitExtras_parts]
  show _ ++ (ts.reverse.takeWhile (·.extra)).reverse = ts
  rw [← List.reverse_append, List.takeWhile_append_dropWhile, List.reverse_reverse]

theorem splitExtras_extra (ts : List Tree) : ∀ t ∈ (splitExtras ts).2, t.extra = true := by
  intro t ht
  exact List.all_eq_true.mp List.all_takeWhile t (List.mem_reverse.mp ht)

theorem splitExtras_last (ts : List Tree) :
    ∀ t ∈ (splitExtras ts).1.getLast?, t.extra = false := by
  intro t ht
  rw [splitExtras_parts, List.getLast?_reverse] at ht
  have := List.head?_dropWhile_not (·.extra) ts.reverse
  rw [Option.mem_def.mp ht] at this
  simpa using this

structure Stand where
  state : State
  offset : Nat

def Tree.Filled (t : Tree) : Prop :=
  ∃ last ∈ t.children.getLast?, last.extra = false ∧ t.stop = last.stop

/-- A tree that fits between two places of a stack. -/
structure Spans (src : Bytes) (b s : Stand) (t : Tree) : Prop where
  sound : t.Sound src
  start : b.offset ≤ t.start.offset
  stop : t.stop.offset = s.offset
  specs : t.Specless ∨ HoldsSpecs b.state
  filled : t.extra = true → t.label = .error → t.Filled

/-- What is asked of the trees of a reading, beyond that they fit their source. -/
structure Law where
  src : Bytes
  /-- All versions of the reading have come as far as this. -/
  front : Nat
  /-- What is asked of a tree above a place. -/
  keeps : Stand → Tree → Prop
  /-- What is asked of the best tree of the whole source so far. -/
  best : Option Tree → Prop

/-- A tree between two places of a stack that keeps the law. -/
structure Rung (L : Law) (b s : Stand) (t : Tree) : Prop extends Spans L.src b s t where
  keeps : L.keeps b t

/-- The tree takes the automaton from one state to the next. A token is put in only where a phrase
can be formed then. -/
structure IsPart (b s : State) (t : Tree) : Prop where
  extra : t.extra = false
  state : s = after b t.label
  missing : t.missing = true → ∃ u, rulesBefore s u ≠ []

/-- A way from a place of a stack up to another one, the trees on it, and how many of them are no
extras. A place where the reader fell out of step counts as one, too. -/
inductive Way (L : Law) : Stand → List Tree → Nat → Stand → Prop where
  | nil (s : Stand) : Way L s [] 0 s
  | extra {b m s : Stand} {t : Tree} {ts : List Tree} {n : Nat} :
      Rung L b m t → t.extra = true → m.state = b.state → Way L m ts n s →
      Way L b (t :: ts) n s
  | part {b m s : Stand} {t : Tree} {ts : List Tree} {n : Nat} :
      Rung L b m t → IsPart b.state m.state t → Way L m ts n s → Way L b (t :: ts) (n + 1) s
  | gap {b s : Stand} {ts : List Tree} {n : Nat} :
      Way L ⟨lost, b.offset⟩ ts n s → Way L b ts (n + 1) s

class Law.Stable (L : Law) : Prop where
  /-- A token is read. -/
  token : ∀ {b : Stand} {t : Tree}, L.front ≤ b.offset → t.IsToken L.src b.offset → L.keeps b t
  /-- A token that may stand anywhere is read. -/
  passed : ∀ {b : Stand} {t : Tree}, L.front ≤ b.offset → t.IsToken L.src b.offset →
    t.label = .token .comment → L.keeps b { t with extra := true }
  /-- A token is put in. -/
  putIn : ∀ {b : Stand} (t : Symbol) (here : Mark), L.front ≤ b.offset → here.offset = b.offset →
    L.keeps b (.missingToken t here)
  ranked : ∀ {b : Stand} {t : Tree} (rank : Int), L.keeps b t → L.keeps b { t with rank }
  /-- What may stand anywhere comes to another state. -/
  moved : ∀ {q q' : State} {a : Nat} {t : Tree}, L.keeps ⟨q, a⟩ t → t.extra = true →
    L.keeps ⟨q', a⟩ t
  /-- Trees are left out. -/
  leftOut : ∀ {q q' : State} {a : Nat} {t : Tree} (ts : List Tree) (here : Mark),
    L.keeps ⟨q, a⟩ t → (∀ u ∈ ts, ∃ b, L.keeps b u) →
    L.keeps ⟨q', a⟩ { Tree.node .error (t :: ts) here with extra := true }
  /-- More trees are left out together with those that were left out before. -/
  leftAgain : ∀ {q q' : State} {a : Nat} {t : Tree} (ts : List Tree) (here : Mark),
    L.keeps ⟨q, a⟩ t → t.label = .error → t.children ≠ [] → (∀ u ∈ ts, ∃ b, L.keeps b u) →
    L.keeps ⟨q', a⟩ { Tree.node .error (t.children ++ ts) here with extra := true }
  skipped : ∀ {q q' : State} {a : Nat} {t : Tree} (ts : List Tree) (here : Mark),
    L.keeps ⟨q, a⟩ t → (∀ u ∈ ts, ∃ b, L.keeps b u) →
    L.keeps ⟨q', a⟩ (.node .skipped (t :: ts) here)
  /-- A phrase is formed from its parts. -/
  formed : ∀ {b s : Stand} {ts : List Tree} {r : Rule} {u : Symbol} (here : Mark),
    Way L b ts r.parts s → r ∈ rulesBefore s.state u → (∀ t ∈ ts.head?, t.extra = false) →
    (∀ t ∈ ts.getLast?, t.extra = false) → here.offset = b.offset →
    (ts = [] → L.front ≤ b.offset) → L.keeps b (.node (.phrase r.phrase) ts here)
  /-- A version has read a whole file. -/
  accepted : ∀ {m m' s : Stand} {us es : List Tree} {t token : Tree},
    Way L ⟨Automaton.initial, 0⟩ us 0 m → Rung L m m' t → t.label = .phrase .sourceFile →
    t.extra = false → Way L m' es 0 s → L.front ≤ s.offset → token.IsToken L.src s.offset →
    token.label = .token .endOfFile →
    L.best (some (.node (.phrase .sourceFile) (us ++ t.children ++ (es ++ [token])) token.stop))
  /-- A version gives up at the end of the source. -/
  gaveUp : ∀ {s : Stand} {ts : List Tree} {n : Nat} {token : Tree},
    Way L ⟨Automaton.initial, 0⟩ ts n s → L.front ≤ s.offset → token.IsToken L.src s.offset →
    token.label = .token .endOfFile → L.best (some (.node .error (ts ++ [token]) token.stop))

theorem Rung.ranked {L : Law} [L.Stable] {b s : Stand} {t : Tree} (h : Rung L b s t) (rank : Int) :
    Rung L b s { t with rank } := by
  have halike : t.Alike { t with rank } := ⟨rfl, rfl, rfl, rfl, rfl, rfl⟩
  exact ⟨⟨halike.sound h.sound, h.start, h.stop, h.specs.imp_left halike.specless, h.filled⟩,
    Law.Stable.ranked rank h.keeps⟩

namespace Way

variable {L : Law} {b m s : Stand} {t : Tree} {ts us : List Tree} {n : Nat} {z : Zone}

theorem sound (h : Way L b ts n s) : ∀ t ∈ ts, t.Sound L.src := by
  induction h with
  | nil => simp
  | extra hrung _ _ _ ih => exact List.forall_mem_cons.mpr ⟨hrung.sound, ih⟩
  | part hrung _ _ ih => exact List.forall_mem_cons.mpr ⟨hrung.sound, ih⟩
  | gap _ ih => exact ih

theorem keeps (h : Way L b ts n s) : ∀ t ∈ ts, ∃ m, L.keeps m t := by
  induction h with
  | nil => simp
  | extra hrung _ _ _ ih => exact List.forall_mem_cons.mpr ⟨⟨_, hrung.keeps⟩, ih⟩
  | part hrung _ _ ih => exact List.forall_mem_cons.mpr ⟨⟨_, hrung.keeps⟩, ih⟩
  | gap _ ih => exact ih

theorem between (h : Way L b ts n s) : Tree.Between ts b.offset s.offset := by
  induction h with
  | nil => exact Nat.le_refl _
  | extra hrung _ _ _ ih => exact ⟨hrung.start, hrung.sound.le, hrung.stop ▸ ih⟩
  | part hrung _ _ ih => exact ⟨hrung.start, hrung.sound.le, hrung.stop ▸ ih⟩
  | gap _ ih => exact ih

theorem stop (h : Way L b ts n s) : (ts.getLast?.map (·.stop.offset)).getD b.offset = s.offset := by
  have hcons : ∀ {b m : Stand} {t : Tree} {ts : List Tree}, Rung L b m t →
      (((t :: ts).getLast?).map (·.stop.offset)).getD b.offset =
        (ts.getLast?.map (·.stop.offset)).getD m.offset := by
    intro b m t ts hrung
    cases ts with
    | nil => simp [hrung.stop]
    | cons u us => simp [List.getLast?_eq_some_getLast]
  induction h with
  | nil => rfl
  | extra hrung _ _ _ ih => exact (hcons hrung).trans ih
  | part hrung _ _ ih => exact (hcons hrung).trans ih
  | gap _ ih => exact ih

theorem of_lost (h : Way L b ts n s) (hb : b.state = lost) : s.state = lost := by
  induction h with
  | nil => exact hb
  | extra _ _ hstate _ ih => exact ih (hstate.trans hb)
  | part _ hpart _ ih => exact ih (by rw [hpart.state, hb, after_lost])
  | gap _ ih => exact ih rfl

theorem specs (h : Way L b ts n s) : ∀ t ∈ ts, t.Specless ∨ HoldsSpecs b.state := by
  induction h with
  | nil => simp
  | extra hrung _ hstate _ ih =>
    exact List.forall_mem_cons.mpr ⟨hrung.specs, fun t ht => (ih t ht).imp_right (hstate ▸ ·)⟩
  | part hrung hpart _ ih =>
    refine List.forall_mem_cons.mpr ⟨hrung.specs, fun t ht => (ih t ht).imp_right fun hm => ?_⟩
    rw [hpart.state] at hm
    exact Automaton.holdsSpecs_of_after hm
  | gap _ ih =>
    exact fun t ht => .inl ((ih t ht).resolve_right Automaton.not_holdsSpecs_lost)

theorem of_append (h : Way L b (ts ++ us) n s) :
    ∃ m i j, Way L b ts i m ∧ Way L m us j s ∧ n = j + i := by
  generalize hall : ts ++ us = all at h
  induction h generalizing ts with
  | nil s =>
    obtain ⟨rfl, rfl⟩ := List.append_eq_nil_iff.mp hall
    exact ⟨s, 0, 0, .nil s, .nil s, rfl⟩
  | @extra b m s t rest n hrung hextra hstate h ih =>
    cases ts with
    | nil =>
      obtain rfl : us = t :: rest := hall
      exact ⟨b, 0, n, .nil b, .extra hrung hextra hstate h, rfl⟩
    | cons t' ts =>
      obtain ⟨rfl, hrest⟩ := List.cons_eq_cons.mp hall
      obtain ⟨m', i, j, hts, hus, hn⟩ := ih hrest
      exact ⟨m', i, j, .extra hrung hextra hstate hts, hus, hn⟩
  | @part b m s t rest n hrung hpart h ih =>
    cases ts with
    | nil =>
      obtain rfl : us = t :: rest := hall
      exact ⟨b, 0, n + 1, .nil b, .part hrung hpart h, rfl⟩
    | cons t' ts =>
      obtain ⟨rfl, hrest⟩ := List.cons_eq_cons.mp hall
      obtain ⟨m', i, j, hts, hus, hn⟩ := ih hrest
      exact ⟨m', i + 1, j, .part hrung hpart hts, hus, by omega⟩
  | gap _ ih =>
    obtain ⟨m', i, j, hts, hus, hn⟩ := ih hall
    exact ⟨m', i + 1, j, .gap hts, hus, by omega⟩

theorem state_of_zero (h : Way L b ts 0 s) : s.state = b.state := by
  generalize hn : 0 = n at h
  induction h with
  | nil => rfl
  | extra _ _ hstate _ ih => exact (ih hn).trans hstate
  | part => cases hn
  | gap => cases hn

theorem extra_of_zero (h : Way L b ts 0 s) : ∀ t ∈ ts, t.extra = true := by
  generalize hn : 0 = n at h
  induction h with
  | nil => simp
  | extra _ hextra _ _ ih => exact List.forall_mem_cons.mpr ⟨hextra, ih hn⟩
  | part => cases hn
  | gap => cases hn

theorem eq_zero (h : Way L b ts n s) (hs : s.state ≠ lost) (hts : ∀ t ∈ ts, t.extra = true) :
    n = 0 := by
  induction h with
  | nil => rfl
  | extra _ _ _ _ ih => exact ih hs fun t ht => hts t (List.mem_cons_of_mem _ ht)
  | part _ hpart => simp [hpart.extra] at hts
  | gap h => exact absurd (h.of_lost rfl) hs

theorem onto [L.Stable] {q : State} (h : Way L b ts n s) (hextra : ∀ t ∈ ts, t.extra = true)
    (hspecs : ∀ t ∈ ts, t.Specless ∨ HoldsSpecs q) : Way L ⟨q, b.offset⟩ ts 0 ⟨q, s.offset⟩ := by
  induction h with
  | nil => exact .nil _
  | @extra b m s t ts n hrung hextra' _ _ ih =>
    have hrung' : Rung L ⟨q, b.offset⟩ ⟨q, m.offset⟩ t :=
      ⟨⟨hrung.sound, hrung.start, hrung.stop, (List.forall_mem_cons.mp hspecs).1, hrung.filled⟩,
        Law.Stable.moved hrung.keeps hextra'⟩
    exact .extra hrung' hextra' rfl
      (ih (List.forall_mem_cons.mp hextra).2 (List.forall_mem_cons.mp hspecs).2)
  | part _ hpart => simp [hpart.extra] at hextra
  | gap _ ih => exact ih hextra hspecs

theorem firstPart (h : Way L b (t :: ts) (n + 1) s) (hs : s.state ≠ lost)
    (ht : t.extra = false) :
    ∃ m, Rung L b m t ∧ IsPart b.state m.state t ∧ Way L m ts n s := by
  cases h with
  | extra _ hextra => simp [ht] at hextra
  | part hrung hpart h => exact ⟨_, hrung, hpart, h⟩
  | gap h => exact absurd (h.of_lost rfl) hs

theorem lastPart (h : Way L b ts (n + 1) s) (hs : s.state ≠ lost) :
    ∃ us t es m m', ts = us ++ t :: es ∧ Way L b us n m ∧ Rung L m m' t ∧
      IsPart m.state m'.state t ∧ Way L m' es 0 s := by
  generalize hk : n + 1 = k at h
  induction h generalizing n with
  | nil => cases hk
  | extra hrung hextra hstate _ ih =>
    obtain ⟨us, t, es, m, m', rfl, hus, hrest⟩ := ih hs hk
    exact ⟨_ :: us, t, es, m, m', rfl, .extra hrung hextra hstate hus, hrest⟩
  | @part b m s t ts k hrung hpart h ih =>
    obtain rfl : n = k := by omega
    cases n with
    | zero => exact ⟨[], t, ts, b, m, rfl, .nil b, hrung, hpart, h⟩
    | succ n =>
      obtain ⟨us, t', es, m₁, m₂, rfl, hus, hrest⟩ := ih hs rfl
      exact ⟨t :: us, t', es, m₁, m₂, rfl, .part hrung hpart hus, hrest⟩
  | gap h => exact absurd (h.of_lost rfl) hs

theorem lastPart_into (h : Way L b ts (n + 1) s) (hz : s.state ∈ z.states)
    (hlast : ∀ t ∈ ts.getLast?, t.extra = false) :
    ∃ us t m, ts = us ++ [t] ∧ Way L b us n m ∧ t.label ∈ z.labels ∧ Rung L m s t ∧
      IsPart m.state s.state t := by
  have hs : s.state ≠ lost := fun h => Automaton.lost_not_mem z (h ▸ hz)
  obtain ⟨us, t, es, m, m', rfl, hus, hrung, hpart, hes⟩ := h.lastPart hs
  obtain rfl : es = [] := by
    rcases List.eq_nil_or_concat es with hnil | ⟨es, e, rfl⟩
    · exact hnil
    · have hextra := hes.extra_of_zero e (by simp)
      rw [List.concat_eq_append, ← List.cons_append, ← List.append_assoc] at hlast
      simp [hlast e List.getLast?_concat] at hextra
  cases hes
  rw [hpart.state] at hz
  exact ⟨us, t, m, rfl, hus, (after_into hz).1, hrung, hpart⟩

theorem into {ys : List Zone} (h : Way L b ts (n + 1) s) (hz : s.state ∈ z.states)
    (hys : z.sources? = some ys) : ∃ y ∈ ys, ∃ us m, Way L b us n m ∧ m.state ∈ y.states := by
  have hs : s.state ≠ lost := fun h => Automaton.lost_not_mem z (h ▸ hz)
  obtain ⟨us, t, es, m, m', -, hus, -, hpart, hes⟩ := h.lastPart hs
  rw [hes.state_of_zero, hpart.state] at hz
  obtain ⟨y, hy, hm⟩ := (after_into hz).2 ys hys
  exact ⟨y, hy, us, m, hus, hm⟩

theorem state_mem_of_one {y : Zone} (h : Way L b ts 1 s) (hz : s.state ∈ z.states)
    (hy : z.sources? = some [y]) : b.state ∈ y.states := by
  obtain ⟨x, hx, us, m, h, hm⟩ := h.into hz hy
  obtain rfl := List.mem_singleton.mp hx
  exact h.state_of_zero ▸ hm

theorem state_mem_of_two {x y : Zone} (h : Way L b ts 2 s) (hz : s.state ∈ z.states)
    (hy : z.sources? = some [y]) (hx : y.sources? = some [x]) : b.state ∈ x.states := by
  obtain ⟨y', hy', us, m, h, hm⟩ := h.into hz hy
  obtain rfl := List.mem_singleton.mp hy'
  exact h.state_mem_of_one hm hx

/-- The parts of a literal, from its quotes. The zone of the opening quote is known by going back
from the closing one. -/
theorem isQuotation {opening closing : Symbol} {label : Label} {here : Mark} (zo zc : Zone)
    (h : Way L b ts (n + 2) s) (hfirst : ∀ t ∈ ts.head?, t.extra = false)
    (hlast : ∀ t ∈ ts.getLast?, t.extra = false) (hzc : s.state ∈ zc.states)
    (hclosing : zc.labels = [.token closing]) (hopening : zo.labels = [.token opening])
    (hback : ∀ {m us}, Way L m us (n + 1) s → m.state ∈ zo.states) (hzo : zo ∉ Zone.outer)
    (hrules : ∀ q ∈ zo.states, ∀ u, rulesBefore q u = []) (hlabel : label ≠ .phrase .importSpec) :
    (Tree.node label ts here).IsQuotation opening closing := by
  have hs : s.state ≠ lost := fun h => Automaton.lost_not_mem zc (h ▸ hzc)
  obtain ⟨us, last, -, rfl, -, hclose, -, -⟩ := h.lastPart_into hzc hlast
  rw [hclosing, List.mem_singleton] at hclose
  cases us with
  | nil =>
    obtain ⟨m, -, -, hrest⟩ := h.firstPart hs (hfirst last rfl)
    exact absurd (hrest.eq_zero hs (by simp)) (Nat.succ_ne_zero n)
  | cons first inner =>
    have hextra : first.extra = false := hfirst first (by simp)
    obtain ⟨m, hrung, hpart, hrest⟩ := h.firstPart hs hextra
    have hm := hback hrest
    have hopen : first.label = .token opening := by
      rw [hpart.state] at hm
      simpa [hopening] using (after_into hm).1
    have hmissing : first.missing = false := by
      rw [Bool.eq_false_iff]
      intro hmissing
      obtain ⟨u, hu⟩ := hpart.missing hmissing
      exact hu (hrules _ hm u)
    have hspecless : ∀ t ∈ inner ++ [last], t.Specless := fun t ht =>
      (hrest.specs t ht).resolve_right (Automaton.not_holdsSpecs hm hzo)
    have hstop : (Tree.node label (first :: (inner ++ [last])) here).stop = last.stop := by
      show ((first :: (inner ++ [last])).getLast?.map (·.stop)).getD here = last.stop
      rw [← List.cons_append, List.getLast?_concat]
      rfl
    refine ⟨⟨first, inner, last, rfl, hopen, hmissing, hclose, rfl, hstop⟩, .intro hlabel ?_⟩
    refine List.forall_mem_cons.mpr ⟨?_, hspecless⟩
    exact hrung.sound.specless_of_token hopen

theorem eq_nil_of_zero (h : Way L b us 0 m) (hfirst : ∀ t ∈ (us ++ ts).head?, t.extra = false) :
    us = [] := by
  cases us with
  | nil => rfl
  | cons e us =>
    have hextra := h.extra_of_zero e List.mem_cons_self
    simp [hfirst e rfl] at hextra

/-- The part of a spec that comes before the path. -/
theorem name_specless (h : Way L b ts 1 s) (hs : s.state ∈ Zone.name.states)
    (hfirst : ∀ t ∈ ts.head?, t.extra = false) : ∀ t ∈ ts, t.Specless := by
  have hlost : s.state ≠ lost := fun h => Automaton.lost_not_mem .name (h ▸ hs)
  obtain ⟨us, name, es, m, m', rfl, hus, hrung, hpart, hes⟩ := h.lastPart hlost
  obtain rfl := hus.eq_nil_of_zero hfirst
  rw [hes.state_of_zero] at hs
  have hname : name.Specless := by
    rw [hpart.state] at hs
    have hlabel := (after_into hs).1
    simp only [Zone.labels, Zone.symbols, Zone.phrases, List.map_cons, List.map_nil,
      List.cons_append, List.nil_append, List.mem_cons, List.not_mem_nil, or_false] at hlabel
    rcases hlabel with hl | hl | hl
    · exact hrung.sound.specless_of_token hl
    · exact hrung.sound.specless_of_token hl
    · have hshaped := hrung.sound.shaped
      simpa only [Tree.Shaped, hl] using hshaped
  exact List.forall_mem_cons.mpr ⟨hname, fun t ht =>
    (hes.specs t ht).resolve_right (Automaton.not_holdsSpecs hs (by decide))⟩

theorem isSpec {here : Mark} {path : Tree} (hsound : path.Sound L.src)
    (hlabel : path.label ∈ Zone.path.labels) (hbefore : ∀ t ∈ ts, t.Specless) :
    (Tree.node (.phrase .importSpec) (ts ++ [path]) here).IsSpec := by
  have hshaped := hsound.shaped
  have hpath : path.isString = true ∧ path.Specless := by
    simp only [Zone.labels, Zone.symbols, Zone.phrases, List.map_cons, List.map_nil,
      List.nil_append, List.mem_cons, List.not_mem_nil, or_false] at hlabel
    rcases hlabel with hl | hl
    · simp only [Tree.Shaped, hl] at hshaped
      exact ⟨by simp [Tree.isString, hl], hshaped.specless⟩
    · simp only [Tree.Shaped, hl] at hshaped
      exact ⟨by simp [Tree.isString, hl], hshaped.specless⟩
  refine ⟨⟨ts, path, rfl, hpath.1⟩, ?_⟩
  intro c hc
  rcases List.mem_append.mp hc with hc | hc
  · exact hbefore c hc
  · exact List.mem_singleton.mp hc ▸ hpath.2

theorem shaped {r : Rule} {u : Symbol} {here : Mark} (h : Way L b ts r.parts s)
    (hr : r ∈ rulesBefore s.state u) (hfirst : ∀ t ∈ ts.head?, t.extra = false)
    (hlast : ∀ t ∈ ts.getLast?, t.extra = false) :
    (Tree.node (.phrase r.phrase) ts here).Shaped L.src := by
  by_cases hphrase : r.phrase ∈ [Phrase.importSpec, .dotName, .string, .rawString]
  · obtain ⟨x, hx, rfl, hs⟩ := Automaton.forming_zone hr hphrase
    simp only [Zone.formingRules, List.mem_cons, List.not_mem_nil, or_false] at hx
    rcases hx with rfl | rfl | rfl | rfl | rfl | rfl
    all_goals dsimp only at h hs ⊢
    · -- a path alone
      obtain ⟨us, path, m, rfl, hus, hlabel, hrung, -⟩ := h.lastPart_into hs hlast
      obtain rfl := hus.eq_nil_of_zero hfirst
      exact isSpec hrung.sound hlabel (by simp)
    · -- a name and a path
      obtain ⟨us, path, m, rfl, hus, hlabel, hrung, hpart⟩ := h.lastPart_into hs hlast
      rw [hpart.state] at hs
      obtain ⟨y, hy, hm⟩ := (after_into hs).2 _ rfl
      obtain rfl := List.mem_singleton.mp hy
      refine isSpec hrung.sound hlabel (hus.name_specless hm fun t ht => hfirst t ?_)
      cases us with
      | nil => cases ht
      | cons t' us => exact ht
    · obtain ⟨us, dot, m, rfl, hus, hlabel, hrung, -⟩ := h.lastPart_into hs hlast
      obtain rfl := hus.eq_nil_of_zero hfirst
      refine .intro (by simp [Tree.node]) ?_
      intro c hc
      obtain rfl := List.mem_singleton.mp hc
      exact hrung.sound.specless_of_token (List.mem_singleton.mp hlabel)
    · exact h.isQuotation .rawQuoted .rawClosed hfirst hlast hs rfl rfl
        (fun h => h.state_mem_of_two hs rfl rfl) (by decide)
        (fun q hq u => Automaton.rulesBefore_quoted (.inr hq) u) (by decide)
    · exact h.isQuotation .quoted .closedEmpty hfirst hlast hs rfl rfl
        (fun h => h.state_mem_of_one hs rfl) (by decide)
        (fun q hq u => Automaton.rulesBefore_quoted (.inl hq) u) (by decide)
    · exact h.isQuotation .quoted .closed hfirst hlast hs rfl rfl
        (fun h => h.state_mem_of_two hs rfl rfl) (by decide)
        (fun q hq u => Automaton.rulesBefore_quoted (.inl hq) u) (by decide)
  · exact Tree.shaped_of_not_mem rfl hphrase

theorem into_two {ys : List Zone} (xs : List Zone) (h : Way L b ts 2 s) (hz : s.state ∈ z.states)
    (hys : z.sources? = some ys) (hxs : ∀ y ∈ ys, ∃ xs' ∈ y.sources?, xs' ⊆ xs) :
    ∃ x ∈ xs, b.state ∈ x.states := by
  obtain ⟨y, hy, us, m, h, hm⟩ := h.into hz hys
  obtain ⟨xs', hxs', hsub⟩ := hxs y hy
  obtain ⟨x, hx, us, m', h, hm'⟩ := h.into hm hxs'
  exact ⟨x, hsub hx, h.state_of_zero ▸ hm'⟩

/-- A phrase that takes the place of something above which specs may stand. -/
theorem holdsSpecs_formed {r : Rule} {u : Symbol} (h : Way L b ts r.parts s)
    (hr : r ∈ rulesBefore s.state u) (hs : HoldsSpecs s.state) :
    HoldsSpecs (Automaton.afterPhrase b.state r.phrase) := by
  obtain ⟨z, hz, hzs⟩ := hs
  obtain ⟨hfile, hitems⟩ := Automaton.tables_fit.items
  have hspecs := Automaton.tables_fit.specs
  simp only [Zone.outer, List.mem_cons, List.not_mem_nil, or_false] at hz
  rcases hz with rfl | rfl | rfl | rfl | rfl | rfl | rfl | rfl | rfl | rfl | rfl | rfl
  all_goals obtain ⟨x, hx, rfl⟩ := Automaton.rule_of_zone hr hzs rfl
  · obtain rfl := List.mem_singleton.mp hx
    exact ⟨.whole, by decide, hfile _ (h.state_of_zero ▸ hzs)⟩
  · obtain rfl := List.mem_singleton.mp hx
    exact ⟨.whole, by decide, hfile _ (h.state_mem_of_one hzs rfl)⟩
  · obtain rfl := List.mem_singleton.mp hx
    obtain ⟨y, hy, hb⟩ := h.into_two [.bottom, .items, .moreItems] hzs rfl (by decide)
    obtain ⟨z, hz, hstate⟩ := hitems y hy _ hb
    exact ⟨z, (by decide : [Zone.items, .moreItems] ⊆ Zone.outer) hz, hstate⟩
  iterate 5 exact absurd hx List.not_mem_nil
  · obtain rfl := List.mem_singleton.mp hx
    obtain ⟨y, hy, hb⟩ := h.into_two [.firstSpec, .secondSpec, .moreSpecs] hzs rfl (by decide)
    obtain ⟨z, hz, hstate⟩ := hspecs y hy _ hb
    exact ⟨z, (by decide : [Zone.secondSpec, .moreSpecs] ⊆ Zone.outer) hz, hstate⟩
  iterate 3 exact absurd hx List.not_mem_nil

theorem holdsSpecs_of_spec {r : Rule} {u : Symbol} (h : Way L b ts r.parts s)
    (hr : r ∈ rulesBefore s.state u) (hspec : r.phrase = .importSpec) : HoldsSpecs b.state := by
  obtain ⟨x, hx, rfl, hs⟩ := Automaton.forming_zone hr (by simp [hspec])
  simp only [Zone.formingRules, List.mem_cons, List.not_mem_nil, or_false] at hx
  have hsub : [Zone.importWord, .block, .firstSeparator, .lastSeparator, .innerSeparator] ⊆
      Zone.outer := by decide
  rcases hx with rfl | rfl | rfl | rfl | rfl | rfl
  · obtain ⟨y, hy, us, m, h, hm⟩ := h.into hs rfl
    exact ⟨y, hsub hy, h.state_of_zero ▸ hm⟩
  · obtain ⟨y, hy, hb⟩ := h.into_two _ hs rfl fun y hy => ⟨_, by
      rw [List.mem_singleton.mp hy]; rfl, fun _ hx => hx⟩
    exact ⟨y, hsub hy, hb⟩
  all_goals cases hspec

theorem form [L.Stable] {r : Rule} {u : Symbol} {here : Mark} (h : Way L b ts r.parts s)
    (hr : r ∈ rulesBefore s.state u) (hfirst : ∀ t ∈ ts.head?, t.extra = false)
    (hhere : here.On L.src) (hoffset : here.offset = b.offset) (hfront : L.front ≤ s.offset) :
    ∃ a, Rung L b ⟨after b.state (.phrase r.phrase), a⟩
        (.node (.phrase r.phrase) (splitExtras ts).1 here) ∧
      Way L ⟨after b.state (.phrase r.phrase), a⟩ (splitExtras ts).2 0
        ⟨after b.state (.phrase r.phrase), s.offset⟩ := by
  have hlost : s.state ≠ lost := by
    intro hs
    rw [hs, Automaton.rulesBefore_lost] at hr
    cases hr
  have hsplit := splitExtras_append ts
  have hlast := splitExtras_last ts
  have hextra := splitExtras_extra ts
  generalize (splitExtras ts).1 = parts at *
  generalize (splitExtras ts).2 = extras at *
  subst hsplit
  obtain ⟨m, i, j, hparts, hextras, hn⟩ := h.of_append
  obtain rfl := hextras.eq_zero hlost hextra
  obtain rfl : r.parts = i := by omega
  rw [hextras.state_of_zero] at hr
  have hempty : parts = [] → L.front ≤ b.offset := by
    rintro rfl
    cases extras with
    | nil =>
      rwa [← show b.offset = s.offset from h.stop] at hfront
    | cons e extras =>
      have hfalse := hfirst e rfl
      rw [hextra e List.mem_cons_self] at hfalse
      cases hfalse
  have hfirst : ∀ t ∈ parts.head?, t.extra = false := by
    cases parts with
    | nil => simp
    | cons t parts => exact hfirst
  have hsound := Tree.sound_node hhere hparts.sound hparts.between (hparts.shaped hr hfirst hlast)
  have hstop : (Tree.node (.phrase r.phrase) parts here).stop.offset = m.offset := by
    rw [← hparts.stop]
    cases hp : parts.getLast? <;> simp [Tree.node, hp, hoffset]
  have hstart : b.offset ≤ (Tree.node (.phrase r.phrase) parts here).start.offset := by
    cases parts with
    | nil => exact Nat.le_of_eq hoffset.symm
    | cons t parts => exact hparts.between.1
  have hspecs : (Tree.node (.phrase r.phrase) parts here).Specless ∨ HoldsSpecs b.state := by
    by_cases hb : HoldsSpecs b.state
    · exact .inr hb
    · refine .inl (.intro ?_ fun t ht => (hparts.specs t ht).resolve_right hb)
      intro hlabel
      exact hb (hparts.holdsSpecs_of_spec hr (Label.phrase.inj hlabel))
  refine ⟨m.offset, ⟨⟨hsound, hstart, hstop, hspecs, fun hlabel => by cases hlabel⟩,
    Law.Stable.formed here hparts hr hfirst hlast hoffset hempty⟩, ?_⟩
  refine hextras.onto hextra fun t ht => (hextras.specs t ht).imp_right fun hm => ?_
  rw [after]
  exact hparts.holdsSpecs_formed hr hm

end Way

end ImportGroups.Source
