import ImportGroups.Proofs.Truncation.Footing

/-!
Readings in which every version stands on a column.

Forming a phrase puts a new version onto a column, as long as no other version is in the state that it
comes to. So what a reader does to get ready for a fault, and which token it puts in, can be told from
the footings of its versions alone.
-/

namespace ImportGroups.Source

open Automaton (lost)

namespace Footing

/-- The rules that can be applied in a state before some token. -/
def formable (q : State) : List Rule :=
  (rulesOf (Contest.actionsBefore none q)).foldl addRule []

def takes (q : State) : Bool := takesToken (Contest.actionsBefore none q)

/-- The footing after a rule, unless it comes to one of the states that are to be avoided. -/
def form (avoid : List State) (r : Rule) (f : Footing) : Option Footing :=
  match f, r.parts with
  | (_, false) :: _, n + 1 =>
    (f.below (n + 1)).bind fun g =>
      if avoid.contains (Automaton.afterPhrase g.state r.phrase) then none
      else some ((Automaton.afterPhrase g.state r.phrase, false) :: g)
  | _, _ => none

theorem form_eq_some {avoid : List State} {r : Rule} {f g : Footing} (h : form avoid r f = some g) :
    ∃ q f' n g', f = (q, false) :: f' ∧ r.parts = n + 1 ∧ f.below (n + 1) = some g' ∧
      Automaton.afterPhrase g'.state r.phrase ∉ avoid ∧
      g = (Automaton.afterPhrase g'.state r.phrase, false) :: g' := by
  unfold form at h
  split at h
  · rename_i q f' n hparts
    obtain ⟨g', hg', h⟩ := Option.bind_eq_some_iff.mp h
    split_ifs at h with havoid
    exact ⟨q, f', n, g', rfl, hparts, hg', by simpa using havoid, (Option.some_inj.mp h).symm⟩
  · cases h

/-- Forms one phrase after the other, in no more than so many turns, until a token can be taken and
nothing else can be done. -/
def settle (avoid : List State) : Nat → Footing → Option Footing
  | 0, _ => none
  | n + 1, f =>
    match takes f.state, formable f.state with
    | true, [] => some f
    | false, [r] => (f.form avoid r).bind (settle avoid n)
    | _, _ => none

/-- A token that is put in in a state is of no use before another one. -/
def unfit (next : Symbol) (q : State) (t : Symbol) : Bool :=
  Automaton.afterSymbol q t == lost || Automaton.afterSymbol q t == q ||
    (Automaton.rulesBefore (Automaton.afterSymbol q t) next).isEmpty

/-- The first token that can be put in before another one. -/
def missing? (next : Symbol) (q : State) : Option Symbol :=
  (Symbol.all.drop 1).find? fun t => !unfit next q t

end Footing

/-- How a version stands: on a footing, or out of step above it. -/
inductive Stance where
  | on (f : Footing)
  | off (f : Footing)

def Stance.state : Stance → State
  | on f => f.state
  | off _ => lost

@[simp] theorem Stance.state_on (f : Footing) : (on f).state = f.state := rfl

/-- The place stands on a footing, or the reader has just fallen out of step there. -/
def Stacks.Bears (s : Stacks) (i : Nat) : Stance → Prop
  | .on f => s.StandsOn i f
  | .off f => (s.place i).state = lost ∧ ∃ j, (s.place i).links = [⟨j, none⟩] ∧ j < i ∧
      (s.place i).mark = (s.place j).mark ∧ s.StandsOn j f

theorem Stacks.Bears.state {s : Stacks} {i : Nat} {x : Stance} (h : s.Bears i x) :
    (s.place i).state = x.state := by
  cases x with
  | on f => exact StandsOn.state h
  | off f => exact h.1

theorem Stacks.Bears.prolongs {s s' : Stacks} {i : Nat} {x : Stance} (h : s.Bears i x)
    (hi : i < s.size) (hs : s.Prolongs s') : s'.Bears i x := by
  cases x with
  | on f => exact StandsOn.prolongs h hi hs
  | off f =>
    obtain ⟨hstate, j, hlinks, hj, hmark, hon⟩ := h
    have hplace := hs.place i hi
    have hbelow := hs.place j (by omega)
    exact ⟨hplace ▸ hstate, j, hplace ▸ hlinks, hj, by rw [hplace, hbelow, hmark],
      hon.prolongs (by omega) hs⟩

/-- Nothing is split off behind a tree that may not stand anywhere. -/
theorem splitExtras_concat (us : List Tree) {t : Tree} (hextra : t.extra = false) :
    splitExtras (us ++ [t]) = (us ++ [t], []) := by
  have hlast : (us ++ [t]).getLast? = some t := by simp
  have hleft : splitExtras (us ++ [t] ++ []) = _ := splitExtras_append_left hlast hextra
  simpa [splitExtras] using hleft

namespace Contest

variable {c c' c'' : Contest} {v w n : Nat} {f g : Footing} {x : Stance}
  {fs : List Stance} {r : Rule}

/-- Nothing was read, and no tree of the whole source was found. -/
structure Idle (c c' : Contest) : Prop where
  best : c'.best? = c.best?
  finished : c'.finished = c.finished
  latest : c'.latest? = c.latest?
  places : c.places.Prolongs c'.places

theorem Idle.refl (c : Contest) : c.Idle c := ⟨rfl, rfl, rfl, .refl _⟩

theorem Idle.trans (h : c.Idle c') (h' : c'.Idle c'') : c.Idle c'' :=
  ⟨h'.best.trans h.best, h'.finished.trans h.finished, h'.latest.trans h.latest,
    h.places.trans h'.places⟩

/-- The version goes on from a place that stands on the footing, or it is out of step. -/
def Stands (c : Contest) (v : Nat) (x : Stance) : Prop :=
  ∃ i, c.head? v = some (i, .active) ∧ i < c.places.size ∧ c.places.Bears i x

/-- All versions go on, each from a place that stands on its footing or out of step. -/
structure Lined (c : Contest) (fs : List Stance) : Prop where
  size : c.versions.size = fs.length
  stands : ∀ v x, fs[v]? = some x → c.Stands v x

theorem Stands.state (h : c.Stands v x) : (c.top v).state = x.state := by
  obtain ⟨i, hhead, -, hi⟩ := h
  obtain ⟨-, htop, -⟩ := version_of_head hhead
  rw [Contest.top, htop, hi.state]

theorem Stands.idle (h : c.Stands v x) (hidle : c.Idle c') (hhead : c'.head? w = c.head? v) :
    c'.Stands w x := by
  obtain ⟨i, hi, hlt, hon⟩ := h
  exact ⟨i, hhead.trans hi, Nat.lt_of_lt_of_le hlt hidle.places.size, hon.prolongs hlt hidle.places⟩

theorem Stands.lined (h : c.Stands 0 x) (hsize : c.versions.size = 1) : c.Lined [x] := by
  refine ⟨hsize, fun v y hy => ?_⟩
  cases v with
  | zero => exact Option.some_inj.mp hy ▸ h
  | succ v => simp at hy

/-- A new version that has read a tree above a place. -/
def spawn (c : Contest) (x : Version) (t : Tree) (q : State) : Contest :=
  (c.addVersion x).push c.versions.size (some t) q

theorem idle_spawn (c : Contest) (x : Version) (t : Tree) (q : State) : c.Idle (c.spawn x t q) :=
  ⟨rfl, rfl, rfl, Stacks.prolongs_push _ _⟩

theorem size_spawn (c : Contest) (x : Version) (t : Tree) (q : State) :
    (c.spawn x t q).versions.size = c.versions.size + 1 := by
  simp [spawn, size_push, addVersion]

theorem head?_spawn {x : Version} {t : Tree} {q : State} (hv : v < c.versions.size) :
    (c.spawn x t q).head? v = c.head? v := by
  rw [spawn, head?_push_of_ne (by omega), head?_addVersion, if_neg (by omega)]

theorem Stands.push {t : Tree} (h : c.Stands v (.on f)) (ht : t.extra = false → t.isError = false)
    (q : State) : (c.push v (some t) q).Stands v (.on ((q, t.extra) :: f)) ∧
      ((c.push v (some t) q).top v).mark = t.stop := by
  obtain ⟨i, hhead, hi, hon⟩ := h
  obtain ⟨-, htop, hstatus⟩ := version_of_head hhead
  have hpushed := head?_push c v (some t) q v
  rw [if_pos ⟨rfl, lt_size_of_head hhead⟩, hstatus] at hpushed
  refine ⟨⟨c.places.size, hpushed, by simp [Contest.push], ?_⟩, ?_⟩
  · have hpush := Stacks.StandsOn.push hon hi ht q
    rw [← htop] at hpush
    exact hpush
  · rw [Contest.top, (version_of_head hpushed).2.1, place_push]
    rfl

theorem stands_spawn {x : Version} {t : Tree} {q : State} (hx : x.status = .active)
    (hlt : x.top < c.places.size) (hf : c.places.StandsOn x.top f)
    (ht : t.extra = false → t.isError = false) :
    (c.spawn x t q).Stands c.versions.size (.on ((q, t.extra) :: f)) ∧
      ((c.spawn x t q).top c.versions.size).mark = t.stop := by
  have hadded : (c.addVersion x).Stands c.versions.size (.on f) := by
    refine ⟨x.top, ?_, hlt, hf⟩
    rw [head?_addVersion, if_pos rfl, Version.head, hx]
  exact hadded.push ht q

theorem Lined.spawn {x : Version} {t : Tree} {q : State} (h : c.Lined fs) (hx : x.status = .active)
    (hlt : x.top < c.places.size) (hf : c.places.StandsOn x.top f)
    (ht : t.extra = false → t.isError = false) :
    (c.spawn x t q).Lined (fs ++ [.on ((q, t.extra) :: f)]) := by
  refine ⟨by simp [size_spawn, h.size], fun v g hg => ?_⟩
  by_cases hv : v < fs.length
  · rw [List.getElem?_append_left hv] at hg
    exact (h.stands v g hg).idle (idle_spawn ..) (head?_spawn (h.size ▸ hv))
  · obtain rfl : v = c.versions.size := by
      have := (List.getElem?_eq_some_iff.mp hg).1
      simp only [List.length_append, List.length_cons, List.length_nil] at this
      have := h.size
      omega
    rw [h.size, List.getElem?_append_right (Nat.le_refl _), Nat.sub_self] at hg
    obtain rfl : _ = g := by simpa using hg
    exact (stands_spawn hx hlt hf ht).1

theorem not_canMerge (h : (c.top v).state ≠ (c.top w).state) : c.canMerge v w = false := by
  rw [Bool.eq_false_iff]
  intro hm
  have hstand := Stacks.joinable_stand (canMerge_iff.mp hm).2.2
  exact h (congrArg Stand.state hstand)

theorem partner?_eq_none {others : List Nat}
    (h : ∀ u ∈ others, (c.top u).state ≠ (c.top w).state) : c.partner? others w = none := by
  refine List.find?_eq_none.mpr fun u hu => ?_
  simp [not_canMerge (h u hu)]

theorem mergeInto_of_none {others : List Nat} (h : c.partner? others w = none) :
    c.mergeInto others w = c := by
  unfold mergeInto
  rw [h]

theorem size_removeVersion (hv : v < c.versions.size) :
    (c.removeVersion v).versions.size = c.versions.size - 1 := by
  simp [removeVersion, Array.eraseIdxIfInBounds, hv]

def Avoids (fs : List Stance) (v : Nat) (q : State) : Prop :=
  ∀ u x, u ≠ v → fs[u]? = some x → x.state ≠ q

theorem Lined.reduce {q : State} (h : c.Lined fs) (hf : fs[v]? = some (.on ((q, false) :: f)))
    (hr : r.parts = n + 1) (hg : Footing.below (n + 1) ((q, false) :: f) = some g)
    (hsize : fs.length ≤ 10) (havoid : Avoids fs v (Automaton.afterPhrase g.state r.phrase)) :
    ∃ c', c.reduce v r = (c', some fs.length) ∧ c.Idle c' ∧
      c'.Lined (fs ++ [.on ((Automaton.afterPhrase g.state r.phrase, false) :: g)]) := by
  obtain ⟨i, hhead, hi, hon⟩ := h.stands v _ hf
  obtain ⟨-, htop, -⟩ := version_of_head hhead
  rcases hon.slices hi n with ⟨hnone, -⟩ | ⟨g', j, us, t, hg', hj, hlt, ⟨⟨_, hfx⟩, -⟩, hslices⟩
  · rw [hg] at hnone
    cases hnone
  · obtain rfl : g = g' := Option.some_inj.mp (hg.symm.trans hg')
    have hextra : t.extra = false := (congrArg Prod.snd (List.cons_eq_cons.mp hfx).1).symm
    have hsplit := splitExtras_concat us hextra
    have hjsize : j < c.places.size := by omega
    -- the version that is made for the one slice, and the tree that it reads
    let x : Version := { top := j, settled := (c.version v).settled }
    let tree := Tree.node (.phrase r.phrase) (us ++ [t]) (c.places.place j).mark
    let whole := { tree with rank := tree.rank + r.rank }
    let after := Automaton.afterPhrase g.state r.phrase
    have hlined : (c.spawn x whole after).Lined (fs ++ [.on ((after, false) :: g)]) :=
      h.spawn rfl hjsize hj fun _ => rfl
    have hnew : (c.addVersion x).top c.versions.size = c.places.place j := by
      have hadded : (c.addVersion x).head? c.versions.size = some (j, .active) := by
        rw [head?_addVersion, if_pos rfl]
        rfl
      rw [Contest.top, (version_of_head hadded).2.1]
      rfl
    have hput : (c.addVersion x).putPhrase v c.versions.size r [us ++ [t]] =
        c.spawn x whole after := by
      have hpartner : (c.spawn x whole after).partner?
          ((List.range c.versions.size).filter (· != v)) c.versions.size = none := by
        refine partner?_eq_none fun u hu => ?_
        obtain ⟨hu, hne⟩ := List.mem_filter.mp hu
        have hlt : u < fs.length := h.size ▸ List.mem_range.mp hu
        have hold := (hlined.stands u fs[u] (by simp [List.getElem?_append_left hlt])).state
        have hlast := (hlined.stands c.versions.size (.on ((after, false) :: g)) (by simp [h.size])).state
        rw [hold, hlast, Stance.state_on, Footing.state_cons]
        dsimp only
        exact havoid u fs[u] (by simpa using hne) (by simp)
      unfold putPhrase
      dsimp only
      rw [hnew, bestWay, List.foldl_nil, hsplit, hj.state]
      exact mergeInto_of_none hpartner
    have hputs : ∀ m, putPhrases v (versionLimit + versionSurplus + m) r [⟨j, [us ++ [t]]⟩]
        c.versions.size (c.addVersion x) = c.spawn x whole after := by
      intro m
      have hle : ¬ versionLimit + versionSurplus + m < c.versions.size := by
        rw [h.size]
        unfold versionLimit versionSurplus
        omega
      simp only [putPhrases, if_neg hle, hput]
    refine ⟨c.spawn x whole after, ?_, idle_spawn .., hlined⟩
    unfold Contest.reduce
    rw [htop, hr, hslices]
    have hsome : c.versions.size < (c.spawn x whole after).versions.size := by
      rw [size_spawn]
      omega
    simp only [List.foldl_cons, List.foldl_nil]
    rw [← h.size]
    exact Prod.ext (hputs _) (if_pos ((hputs _).symm ▸ hsome))

theorem Lined.moveVersion (h : c.Lined (fs ++ [x])) (hv : v < fs.length) :
    (c.moveVersion fs.length v).Lined (fs.set v x) ∧ c.Idle (c.moveVersion fs.length v) := by
  have hsize : c.versions.size = fs.length + 1 := by simpa using h.size
  have hidle : c.Idle (c.moveVersion fs.length v) := ⟨rfl, rfl, rfl, .refl _⟩
  have hhead := head?_moveVersion (c := c) hv (by omega)
  refine ⟨⟨?_, fun u f hf => ?_⟩, hidle⟩
  · unfold Contest.moveVersion
    rw [size_removeVersion (by simp [setVersion, hsize])]
    simp [setVersion, hsize]
  · rw [List.getElem?_set] at hf
    have hlt : u < fs.length := by
      refine Nat.lt_of_not_le fun hu => ?_
      have hnone := List.getElem?_eq_none hu
      split_ifs at hf
      · omega
      · simp [hnone] at hf
    by_cases huv : u = v
    · subst huv
      rw [if_pos rfl, if_pos hlt] at hf
      obtain rfl := Option.some_inj.mp hf
      exact (h.stands fs.length x (by simp)).idle hidle (by rw [hhead, if_pos rfl])
    · rw [if_neg (by omega)] at hf
      refine (h.stands u f (by rw [List.getElem?_append_left hlt, hf])).idle hidle ?_
      rw [hhead, if_neg huv, if_pos hlt]

theorem formPhrases_settle (avoid : List State) (start first turn fuel : Nat) (able : Bool)
    (h : c.Lined fs) (hf : fs[v]? = some (.on f)) (hsize : fs.length ≤ 10) (hv : v ≤ first)
    (havoid : ∀ u x, u ≠ v → fs[u]? = some x → x.state ∈ avoid)
    (hsettle : f.settle avoid n = some g) (hturn : turn + n ≤ versionLimit + 1)
    (hfuel : n ≤ fuel) :
    ∃ c' turn' fuel', formPhrases none start first fuel turn v able c =
        formPhrases none start first fuel' turn' (if v == start then fs.length else v + 1) true c' ∧
      c.Idle c' ∧ c'.Lined (fs.set v (.on g)) := by
  induction n generalizing c fs f turn fuel able with
  | zero => cases hsettle
  | succ n ih =>
    obtain ⟨fuel, rfl⟩ : ∃ m, fuel = m + 1 := ⟨fuel - 1, by omega⟩
    have hlt : v < fs.length := (List.getElem?_eq_some_iff.mp hf).1
    have hstate : (c.top v).state = f.state := (h.stands v (.on f) hf).state
    have hnone : (List.range v).drop first = [] := List.drop_eq_nil_of_le (by simpa using hv)
    have hpartner : c.partner? [] v = none := rfl
    rw [Footing.settle] at hsettle
    rw [formPhrases]
    dsimp only
    rw [if_neg (by rw [h.size]; omega), hnone, hpartner, hstate, h.size]
    dsimp only
    split at hsettle
    · rename_i htakes hformable
      obtain rfl := Option.some_inj.mp hsettle
      have hset : fs.set v (.on f) = fs := by
        rw [← (List.getElem?_eq_some_iff.mp hf).2, List.set_getElem_self]
      rw [show (rulesOf _).foldl addRule [] = [] from hformable, show takesToken _ = true from htakes]
      exact ⟨c, turn + 1, fuel, rfl, .refl c, hset.symm ▸ h⟩
    · rename_i r htakes hformable
      obtain ⟨g₁, hform, hsettle⟩ := Option.bind_eq_some_iff.mp hsettle
      obtain ⟨q, f', m, g', rfl, hparts, hbelow, hnew, rfl⟩ := Footing.form_eq_some hform
      obtain ⟨c₁, hreduce, hidle, hlined⟩ := h.reduce hf hparts hbelow hsize
        (fun u f' hu hf' heq => hnew (heq ▸ havoid u f' hu hf'))
      obtain ⟨hmoved, hidle'⟩ := hlined.moveVersion hlt
      have hpos : 0 < n := by
        cases n with
        | zero => cases hsettle
        | succ n => exact Nat.succ_pos n
      obtain ⟨c', turn', fuel', hrest, hidle'', hlined'⟩ := ih (turn + 1) fuel able
        hmoved (by rw [List.getElem?_set_self hlt]) (by simpa using hsize)
        (fun u f' hu hf' => havoid u f' hu (by rwa [List.getElem?_set_ne (by omega)] at hf'))
        hsettle (by omega) (by omega)
      rw [show (rulesOf _).foldl addRule [] = [r] from hformable, show takesToken _ = false from htakes]
      rw [List.length_set] at hrest
      rw [List.set_set] at hlined'
      refine ⟨c', turn', fuel', ?_, (hidle.trans hidle').trans hidle'', hlined'⟩
      rw [← hrest, List.foldl_cons, List.foldl_nil, hreduce]
      have hlimit : turn < versionLimit := by omega
      simp only [hlimit, decide_true]
      rfl
    · cases hsettle

theorem formPhrases_end {symbol? : Option Symbol} {start first fuel turn : Nat} {able : Bool}
    (hv : c.versions.size ≤ v) : formPhrases symbol? start first fuel turn v able c = (c, able) := by
  cases fuel with
  | zero => rfl
  | succ fuel => rw [formPhrases, if_pos hv]

/-- A version gets ready for a fault by forming phrases. -/
theorem Lined.prepare (h : c.Lined fs) (avoid : List State) (hf : fs[v]? = some (.on f))
    (hsize : fs.length ≤ 10)
    (havoid : ∀ u x, u ≠ v → fs[u]? = some x → x.state ∈ avoid)
    (hsettle : f.settle avoid (versionLimit + 1) = some g) :
    ∃ c', c.prepare v none = (c', true) ∧ c.Idle c' ∧ c'.Lined (fs.set v (.on g)) := by
  have hlt : v < fs.length := (List.getElem?_eq_some_iff.mp hf).1
  obtain ⟨c', turn, fuel, hform, hidle, hlined⟩ := formPhrases_settle avoid v
    c.versions.size 0 turnLimit false h hf hsize
    (by rw [h.size]; omega) havoid hsettle (by omega) (by decide)
  refine ⟨c', ?_, hidle, hlined⟩
  rw [Contest.prepare, hform, formPhrases_end]
  simp [hlined.size]

/-- A version that can take a token and can form a phrase as well leaves it open which it does. -/
theorem Lined.prepare_branch {g₀ : Footing} (h : c.Lined [.on f]) (htakes : Footing.takes f.state = true)
    (hformable : Footing.formable f.state = [r]) (hform : f.form [] r = some g₀)
    (hsettle : g₀.settle [f.state] versionLimit = some g) :
    ∃ c', c.prepare 0 none = (c', true) ∧ c.Idle c' ∧ c'.Lined [.on f, .on g] := by
  obtain ⟨q, f', m, g', rfl, hparts, hbelow, hnew, rfl⟩ := Footing.form_eq_some hform
  obtain ⟨c₁, hreduce, hidle, hlined⟩ := h.reduce (v := 0) rfl hparts hbelow (by simp)
    (by rintro u f' hu hf'; simp [hu] at hf')
  have hstate := (h.stands 0 _ rfl).state
  rw [Stance.state_on] at hstate
  have hsize : c.versions.size = 1 := h.size
  have hfirst : c.prepare 0 none = formPhrases none 0 1 (turnLimit - 1) 1 1 true c₁ := by
    have hlimit : turnLimit = turnLimit - 1 + 1 := rfl
    rw [Contest.prepare, hlimit, formPhrases]
    dsimp only
    rw [if_neg (by omega), hstate, hsize]
    rw [show (rulesOf _).foldl addRule [] = [r] from hformable, show takesToken _ = true from htakes,
      List.foldl_cons, List.foldl_nil, hreduce]
    rfl
  obtain ⟨c', turn, fuel, hform, hidle', hlined'⟩ := formPhrases_settle (v := 1) [q] 0 1 1
    (turnLimit - 1) true hlined rfl (by simp)
    (Nat.le_refl 1) (by
      intro u f' hu hf'
      obtain rfl : u = 0 := by
        have := (List.getElem?_eq_some_iff.mp hf').1
        simp at this
        omega
      obtain rfl : _ = f' := by simpa using hf'
      simp) hsettle (by omega) (by decide)
  refine ⟨c', ?_, hidle.trans hidle', hlined'⟩
  rw [hfirst, hform, formPhrases_end]
  simp [hlined'.size]

theorem putMissing_append {next : Symbol} {ts : List Symbol} (us : List Symbol)
    (h : ∀ t ∈ ts, Footing.unfit next (c.top v).state t = true) :
    c.putMissing v next (ts ++ us) = c.putMissing v next us := by
  induction ts with
  | nil => rfl
  | cons t ts ih =>
    obtain ⟨ht, hts⟩ := List.forall_mem_cons.mp h
    rw [List.cons_append, putMissing]
    exact (if_pos ht).trans (ih hts)

theorem putMissing_of_none {next : Symbol} (h : Footing.missing? next (c.top v).state = none) :
    c.putMissing v next (Symbol.all.drop 1) = (c, false) := by
  have hall : ∀ t ∈ Symbol.all.drop 1, Footing.unfit next (c.top v).state t = true := by
    simpa [Footing.missing?] using h
  have happend := putMissing_append [] hall
  rwa [List.append_nil] at happend

/-- Before the end of the source the first token is put in with which something fits. -/
theorem Lined.putMissing {t : Symbol} (h : c.Lined fs) (hf : fs[v]? = some (.on f))
    (hsize : fs.length ≤ 9) (hmissing : Footing.missing? .endOfFile f.state = some t)
    (hsettle : Footing.settle (fs.map Stance.state) (versionLimit + 1)
      ((Automaton.afterSymbol f.state t, false) :: f) = some g) :
    ∃ c', c.putMissing v .endOfFile (Symbol.all.drop 1) = (c', true) ∧ c.Idle c' ∧
      c'.Lined (fs ++ [.on g]) := by
  obtain ⟨i, hhead, hi, hon⟩ := h.stands v (.on f) hf
  obtain ⟨-, htop, hstatus⟩ := version_of_head hhead
  have hstate : (c.top v).state = f.state := (h.stands v (.on f) hf).state
  obtain ⟨ht, before, behind, hall, hbefore⟩ := List.find?_eq_some_iff_append.mp hmissing
  let x : Version := { c.version v with levels? := none }
  let q := Automaton.afterSymbol f.state t
  have hlined : (c.spawn x (.missingToken t (c.top v).mark) q).Lined
      (fs ++ [.on ((q, false) :: f)]) :=
    h.spawn hstatus (htop ▸ hi) (htop ▸ hon) fun _ => rfl
  obtain ⟨c', hprepare, hidle, hlined'⟩ := hlined.prepare (v := fs.length) (f := (q, false) :: f)
    (fs.map Stance.state) (by simp) (by rw [List.length_append, List.length_singleton]; omega) (by
      intro u f' hu hf'
      have hlt : u < fs.length := by
        have := (List.getElem?_eq_some_iff.mp hf').1
        simp only [List.length_append, List.length_cons, List.length_nil] at this
        omega
      rw [List.getElem?_append_left hlt] at hf'
      exact List.mem_map_of_mem (List.mem_of_getElem? hf')) hsettle
  refine ⟨c', ?_, (idle_spawn ..).trans hidle, by simpa using hlined'⟩
  rw [hall, putMissing_append _ (by rw [hstate]; simpa using hbefore), Contest.putMissing]
  dsimp only
  rw [hstate, if_neg (by simpa [Footing.unfit] using ht)]
  rw [← h.size] at hprepare
  rw [beq_self_eq_true, if_pos rfl]
  generalize hp : Contest.prepare _ _ _ = p
  rw [show p = (c', true) from hp.symm.trans hprepare]

end Contest

end ImportGroups.Source
