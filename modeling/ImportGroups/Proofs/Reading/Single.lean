import ImportGroups.Proofs.Reading.Column

/-!
Rounds of a reading with one version.

A round of such a reading takes one token: the phrases that end before it are formed, and the token
goes on top of the column. At the end of the source the trees of the column become the tree of the
whole.
-/

namespace ImportGroups.Source

open Contest

structure Single (start : Mark) (c : Contest) (k : Column) : Prop where
  version : ∃ i, c.versions = #[{ top := i }] ∧ k.Stands c.places start i
  unfinished : c.best? = none
  /-- No version has come to the end of the source. -/
  finished : c.finished = 0

variable {start : Mark} {c : Contest} {k : Column}

namespace Single

theorem top (h : Single start c k) :
    (c.top 0).state = k.state ∧ (c.top 0).mark = k.mark start := by
  obtain ⟨i, hv, hs⟩ := h.version
  have htop : (c.version 0).top = i := by simp [Contest.version, hv]
  rw [Contest.top, htop]
  exact hs.place

theorem state (h : Single start c k) : (c.top 0).state = k.state := h.top.1

theorem mark (h : Single start c k) : (c.top 0).mark = k.mark start := h.top.2

theorem offset (h : Single start c k) : c.offset 0 = (k.mark start).offset := by
  rw [Contest.offset, h.mark]

theorem active (h : Single start c k) : (c.version 0).status.isActive = true := by
  obtain ⟨i, hv, _⟩ := h.version
  simp [Contest.version, hv, Status.isActive]

theorem size (h : Single start c k) : c.versions.size = 1 := by
  obtain ⟨i, hv, _⟩ := h.version
  simp [hv]

theorem push (h : Single start c k) (t : Tree) (s : State) :
    Single start (c.push 0 (some t) s) ((s, t) :: k) := by
  obtain ⟨i, hv, hs⟩ := h.version
  refine ⟨⟨c.places.size, ?_, ?_⟩, h.unfinished, h.finished⟩
  · simp [Contest.push, Contest.version, hv]
  · have := hs.above t s
    simpa [Contest.push, Contest.version, hv] using this

theorem withLatest (h : Single start c k) (r : Option Reuse) :
    Single start { c with latest? := r } k :=
  ⟨h.version, h.unfinished, h.finished⟩

end Single

theorem splitExtras_trees (top : Column) :
    splitExtras top.trees =
      (Column.trees (top.dropWhile (·.2.extra)), Column.trees (top.takeWhile (·.2.extra))) := by
  have hwhile : top.trees.reverse.takeWhile (·.extra) = (top.takeWhile (·.2.extra)).map (·.2) := by
    rw [Column.trees, List.reverse_reverse, List.takeWhile_map]
    rfl
  have htop : top.trees =
      Column.trees (top.dropWhile (·.2.extra)) ++ Column.trees (top.takeWhile (·.2.extra)) := by
    rw [← Column.trees_append, List.takeWhile_append_dropWhile]
  have htake : top.trees.take (top.trees.length - (Column.trees (top.takeWhile (·.2.extra))).length) =
      Column.trees (top.dropWhile (·.2.extra)) := by
    rw [htop, List.length_append, Nat.add_sub_cancel, List.take_left]
  unfold splitExtras
  rw [hwhile, ← Column.trees]
  exact congrArg (·, _) htake

/-- A new version stands beside the one that it comes from. -/
structure Paired (start : Mark) (c : Contest) (i : Nat) (k : Column) : Prop where
  versions : ∃ j, c.versions = #[{ top := i }, { top := j }] ∧ k.Stands c.places start j
  unfinished : c.best? = none
  finished : c.finished = 0

namespace Paired

variable {i : Nat}

theorem push (h : Paired start c i k) (t : Tree) (s : State) :
    Paired start (c.push 1 (some t) s) i ((s, t) :: k) := by
  obtain ⟨j, hv, hs⟩ := h.versions
  refine ⟨⟨c.places.size, ?_, ?_⟩, h.unfinished, h.finished⟩
  · simp [Contest.push, Contest.version, hv]
  · have := hs.above t s
    simpa [Contest.push, Contest.version, hv] using this

theorem pushAll (h : Paired start c i k) (s : State) (top : Column) :
    Paired start (c.pushAll 1 top.trees s) i (top.map (fun x => (s, x.2)) ++ k) ∧
      (c.pushAll 1 top.trees s).latest? = c.latest? := by
  induction top with
  | nil => exact ⟨h, rfl⟩
  | cons x top ih =>
    have hpush : c.pushAll 1 (Column.trees (x :: top)) s =
        (c.pushAll 1 (Column.trees top) s).push 1 (some x.2) s := by
      simp [Contest.pushAll, Column.trees]
    rw [hpush]
    exact ⟨ih.1.push x.2 s, ih.2⟩

/-- The new version takes the turn of the other one. -/
theorem move (h : Paired start c i k) : Single start (c.moveVersion 1 0) k := by
  obtain ⟨j, hv, hs⟩ := h.versions
  refine ⟨⟨j, ?_, hs⟩, h.unfinished, h.finished⟩
  simp [moveVersion, Contest.version, setVersion, removeVersion, hv]

end Paired

/-- A version forms a phrase, and the new version takes its turn. -/
theorem Single.reduce {top below : Column} (h : Single start c (top ++ below)) {rule : Rule}
    (htop : Column.Top rule.parts top) :
    ∃ c', reduceAll 0 [rule] c none = (c', some 1) ∧
      Single start (c'.moveVersion 1 0) (Column.reduce start rule top below) ∧
      (c'.moveVersion 1 0).latest? = c.latest? := by
  obtain ⟨i, hv, hs⟩ := h.version
  obtain ⟨j, hj, hslices⟩ := hs.slices htop
  have hplace := hj.place
  let s := Automaton.afterPhrase below.state rule.phrase
  let tree := Tree.node (.phrase rule.phrase) (Column.trees (top.dropWhile (·.2.extra)))
    (below.mark start)
  let whole := { tree with rank := tree.rank + rule.rank }
  let split : Contest := { c with versions := #[{ top := i }, { top := j }] }
  have hsplit : Paired start split i below := ⟨⟨j, rfl, hj⟩, h.unfinished, h.finished⟩
  obtain ⟨hpaired, hlatest⟩ := (hsplit.push whole s).pushAll s (top.takeWhile (·.2.extra))
  let after := (split.push 1 (some whole) s).pushAll 1 (Column.trees (top.takeWhile (·.2.extra))) s
  have hput : split.putPhrase 0 1 rule [top.trees] = after := by
    simp [putPhrase, Contest.top, Contest.version, split, hplace.1, hplace.2, bestWay,
      splitExtras_trees, mergeInto, partner?, List.range_succ, after, whole, tree, s]
  have hsize : after.versions.size = 2 := by
    obtain ⟨_, hversions, _⟩ := hpaired.versions
    rw [hversions]
    rfl
  have hreduce : c.reduce 0 rule = (after, some 1) := by
    have hadd : c.addVersion { top := j } = split := by
      simp [addVersion, split, hv]
    simp only [Contest.reduce, Contest.version, hv, List.size_toArray, List.length_cons,
      List.length_nil, Nat.zero_add, Nat.lt_add_one, getElem?_pos, List.getElem_toArray,
      List.getElem_cons_zero, Option.getD_some, hslices, List.foldl_cons, List.foldl_nil, hadd,
      putPhrases, hput]
    simp [split, versionLimit, versionSurplus, Status.isHalted, hsize]
  refine ⟨after, ?_, hpaired.move, hlatest⟩
  rw [reduceAll, hreduce]
  rfl

theorem act_shift {fuel : Nat} {token : Tree} {t : Symbol} {target : State}
    (h : Single start c k) (ht : token.symbol? = some t)
    (ha : Automaton.actions k.state t = [.shift target]) :
    act (fuel + 1) c 0 token = c.push 0 (some token) target := by
  simp [act, h.state, ht, ha, allRulesOf, lastStep?, reduceAll]

theorem act_reduce {fuel : Nat} {token : Tree} {t : Symbol} {rule : Rule} {top below : Column}
    (h : Single start c (top ++ below)) (ht : token.symbol? = some t)
    (ha : Automaton.actions (top ++ below).state t = [.reduce rule])
    (htop : Column.Top rule.parts top) :
    ∃ c', act (fuel + 1) c 0 token = act fuel c' 0 token ∧
      Single start c' (Column.reduce start rule top below) ∧ c'.latest? = c.latest? := by
  obtain ⟨c', hreduce, hs, hl⟩ := h.reduce htop
  refine ⟨c'.moveVersion 1 0, ?_, hs, hl⟩
  simp [act, h.state, ht, ha, allRulesOf, lastStep?, hreduce]

/-- So many phrases are formed before the symbol, which leads from one column to the other. -/
inductive Forms (start : Mark) (t : Symbol) : Nat → Column → Column → Prop where
  | refl (k : Column) : Forms start t 0 k k
  | step {n : Nat} {top below k' : Column} {rule : Rule} :
      Automaton.actions (top ++ below).state t = [.reduce rule] → Column.Top rule.parts top →
      Forms start t n (Column.reduce start rule top below) k' →
      Forms start t (n + 1) (top ++ below) k'

theorem Forms.trans {t : Symbol} {m n : Nat} {k k' k'' : Column} (h : Forms start t m k k')
    (h' : Forms start t n k' k'') : Forms start t (m + n) k k'' := by
  induction h with
  | refl k => simpa using h'
  | step ha htop _ ih =>
    rw [Nat.add_right_comm]
    exact .step ha htop (ih h')

theorem Forms.mark {t : Symbol} {n : Nat} {k' : Column} (h : Forms start t n k k') :
    k'.mark start = k.mark start := by
  induction h with
  | refl k => rfl
  | step _ htop _ ih => rw [ih, Column.mark_reduce htop]

theorem act_forms {t : Symbol} {n fuel : Nat} {token : Tree} {k' : Column}
    (hf : Forms start t n k k') (h : Single start c k) (ht : token.symbol? = some t) :
    ∃ c', act (fuel + n) c 0 token = act fuel c' 0 token ∧ Single start c' k' ∧
      c'.latest? = c.latest? := by
  induction hf generalizing c with
  | refl k => exact ⟨c, rfl, h, rfl⟩
  | step ha htop _ ih =>
    obtain ⟨c₁, h₁, hs₁, hl₁⟩ := act_reduce h ht ha htop
    obtain ⟨c₂, h₂, hs₂, hl₂⟩ := ih hs₁
    exact ⟨c₂, h₁.trans h₂, hs₂, hl₂.trans hl₁⟩

def Fresh (start : Mark) (c : Contest) (k : Column) : Prop :=
  ∀ r, c.latest? = some r → r.offset ≠ (k.mark start).offset ∨ r.holdsIn k.state = false

theorem nextToken_of_fresh {token : Tree} {isKeyword : Bool} (h : Single start c k)
    (hf : Fresh start c k) (hr : readToken k.state (k.mark start) = (token, isKeyword)) :
    c.nextToken 0 =
      (token, { c with latest? := some ⟨(k.mark start).offset, token, k.state, isKeyword⟩ }) := by
  unfold nextToken
  simp only [h.state, h.mark, hr]
  cases hl : c.latest? with
  | none => rfl
  | some r =>
    rcases hf r hl with hne | hno
    · simp [hne]
    · simp [hno]

/-- Before the next token, `token`, so many phrases are formed, then it is taken. -/
structure Takes (start : Mark) (token : Tree) (n : Nat) (k k' : Column) : Prop where
  /-- The token is the next one. -/
  reads : ∃ isKeyword, readToken k.state (k.mark start) = (token, isKeyword)
  takes : ∃ t target k₁, token.symbol? = some t ∧ Forms start t n k k₁ ∧
    Automaton.actions k₁.state t = [.shift target] ∧ k' = (target, token) :: k₁

theorem Takes.mark {token : Tree} {n : Nat} {k' : Column} (h : Takes start token n k k') :
    k'.mark start = token.stop := by
  obtain ⟨_, _, _, _, _, _, rfl⟩ := h.takes
  rfl

theorem Tree.isError_of_symbol? {token : Tree} {t : Symbol} (h : token.symbol? = some t) :
    token.isError = false := by
  unfold symbol? at h
  unfold isError
  cases hl : token.label <;> simp [hl] at h ⊢

theorem readOn_takes {limit n : Nat} {token : Tree} {k' : Column} (ht : Takes start token n k k')
    (h : Single start c k) (hf : Fresh start c k) (hlimit : n < limit) :
    ∃ c' isKeyword, Single start c' k' ∧
      c'.latest? = some ⟨(k.mark start).offset, token, k.state, isKeyword⟩ ∧
      ∀ fuel far, readOn limit (fuel + 1) c 0 far =
        if far < token.stop.offset then (c', token.stop.offset)
        else readOn limit fuel c' 0 far := by
  obtain ⟨isKeyword, hr⟩ := ht.reads
  obtain ⟨t, target, k₁, hsym, hforms, hshift, rfl⟩ := ht.takes
  let c₀ : Contest :=
    { c with latest? := some ⟨(k.mark start).offset, token, k.state, isKeyword⟩ }
  obtain ⟨fuel₁, hfuel₁⟩ : ∃ m, limit = m + 1 + n := ⟨limit - n - 1, by omega⟩
  obtain ⟨c₁, hact, hs₁, hl₁⟩ := act_forms hforms (h.withLatest _ : Single start c₀ k) hsym
  have hpush := hs₁.push token target
  refine ⟨c₁.push 0 (some token) target, isKeyword, hpush, hl₁, fun fuel far => ?_⟩
  have hwhole : act limit c₀ 0 token = c₁.push 0 (some token) target := by
    rw [hfuel₁, hact, act_shift hs₁ hsym hshift]
  have hoffset : (c₁.push 0 (some token) target).offset 0 = token.stop.offset := hpush.offset
  rw [readOn, if_neg (by simp [h.active]), nextToken_of_fresh h hf hr]
  simp only [Tree.isError_of_symbol? hsym, Bool.false_and, Bool.false_eq_true, if_false]
  rw [hwhole, hoffset]
  simp

theorem condense_single (h : Single start c k) :
    Single start c.condense.1 k ∧ c.condense.1.latest? = c.latest? := by
  obtain ⟨i, hv, hs⟩ := h.version
  refine ⟨⟨⟨i, ?_, ?_⟩, ?_, ?_⟩, ?_⟩
  all_goals
    simp [condense, hv, siftAll, Contest.version, Status.isHalted, settle, setVersion, sift, resume,
      versionLimit, h.unfinished, h.finished, hs]

inductive Contest.Later (limit : Nat) : Contest → Contest → Prop where
  | refl (c : Contest) : Later limit c c
  | round {c c' : Contest} (far : Nat) :
      Later limit (readAll limit limit c 0 far).1.condense.1 c' → Later limit c c'

theorem Contest.Later.trans {limit : Nat} {c c' c'' : Contest} (h : Later limit c c')
    (h' : Later limit c' c'') : Later limit c c'' := by
  induction h with
  | refl => exact h'
  | round far _ ih => exact .round far (ih h')

theorem rounds_succ (fuel : Nat) {limit far far' : Nat} {c' : Contest} {k' : Column}
    (h : Single start c k) (h' : Single start c' k') (hlimit : 1 < limit)
    (hread : readOn limit limit c 0 far = (c', far')) :
    ∃ c'', Single start c'' k' ∧ c''.latest? = c'.latest? ∧
      rounds limit (fuel + 1) c far = rounds limit fuel c'' far' ∧ c.Later limit c'' := by
  obtain ⟨m, rfl⟩ : ∃ m, limit = m + 2 := ⟨limit - 2, by omega⟩
  have hall : readAll (m + 2) (m + 2) c 0 far = (c', far') := by
    rw [readAll, if_neg (by simp [h.size]), hread]
    simp only [readAll, h'.size]
    rfl
  obtain ⟨hs, hl⟩ := condense_single h'
  refine ⟨c'.condense.1, hs, hl, ?_, .round far ?_⟩
  · rw [rounds, hall]
    simp [h'.size, hs.unfinished]
  · rw [hall]
    exact .refl _

/-- What a reading with one version does in one round. Before a token that takes no room the version
goes on in the same round. A token that may stand anywhere is laid down. -/
inductive Round (start : Mark) (k : Column) : Column → Prop where
  | one {token : Tree} {n : Nat} {k' : Column} :
      Takes start token n k k' → n ≤ 20 → (k.mark start).offset < token.stop.offset →
      Round start k k'
  | two {empty token : Tree} {t : Symbol} {m n : Nat} {k₁ k' : Column} :
      0 < (k.mark start).offset → Takes start empty m k k₁ → m ≤ 20 →
      empty.stop.offset = (k.mark start).offset → empty.symbol? = some t →
      Automaton.admits k₁.state t = false → Takes start token n k₁ k' → n ≤ 20 →
      (k.mark start).offset < token.stop.offset →
      Round start k k'
  | pass {token : Tree} {t : Symbol} {isKeyword : Bool} :
      readToken k.state (k.mark start) = (token, isKeyword) → token.symbol? = some t →
      Automaton.actions k.state t = [.pass] → (k.mark start).offset < token.stop.offset →
      Round start k ((k.state, { token with extra := true }) :: k)

theorem Reuse.not_holdsIn {r : Reuse} {s : State} {t : Symbol} (ht : r.token.symbol? = some t)
    (ha : Automaton.admits s t = false) : r.holdsIn s = false := by
  simp [Reuse.holdsIn, ht, ha]

theorem Round.offset_lt {k' : Column} (h : Round start k k') :
    (k.mark start).offset < (k'.mark start).offset := by
  cases h with
  | one ht _ hlt => rwa [ht.mark]
  | two _ _ _ _ _ _ ht _ hlt => rwa [ht.mark]
  | pass _ _ _ hlt => exact hlt

/-- A version that has got ahead has to read its next token. -/
theorem rounds_ahead (fuel : Nat) {limit : Nat} {c' : Contest} {k' : Column} {r : Reuse}
    (h : Single start c k) (h' : Single start c' k') (hlimit : 1 < limit)
    (hlatest : c'.latest? = some r) (hr : r.offset < (k'.mark start).offset)
    (hread : readOn limit limit c 0 (k.mark start).offset = (c', (k'.mark start).offset)) :
    ∃ c'', Single start c'' k' ∧ Fresh start c'' k' ∧
      rounds limit (fuel + 1) c (k.mark start).offset =
        rounds limit fuel c'' (k'.mark start).offset ∧ c.Later limit c'' := by
  obtain ⟨c'', hs, hl, hrounds⟩ := rounds_succ fuel h h' hlimit hread
  refine ⟨c'', hs, ?_, hrounds⟩
  intro r' hr'
  rw [hl, hlatest, Option.some.injEq] at hr'
  subst hr'
  exact .inl (Nat.ne_of_lt hr)

theorem readOn_pass (fuel : Nat) {limit : Nat} {token : Tree} {t : Symbol} {isKeyword : Bool}
    (h : Single start c k) (hf : Fresh start c k) (hlimit : 0 < limit)
    (hr : readToken k.state (k.mark start) = (token, isKeyword)) (ht : token.symbol? = some t)
    (ha : Automaton.actions k.state t = [.pass])
    (hlt : (k.mark start).offset < token.stop.offset) :
    ∃ c', Single start c' ((k.state, { token with extra := true }) :: k) ∧
      c'.latest? = some ⟨(k.mark start).offset, token, k.state, isKeyword⟩ ∧
      readOn limit (fuel + 1) c 0 (k.mark start).offset = (c', token.stop.offset) := by
  let c₀ : Contest :=
    { c with latest? := some ⟨(k.mark start).offset, token, k.state, isKeyword⟩ }
  have hs₀ : Single start c₀ k := h.withLatest _
  have hpush := hs₀.push { token with extra := true } k.state
  obtain ⟨m, rfl⟩ : ∃ m, limit = m + 1 := ⟨limit - 1, by omega⟩
  have hact : act (m + 1) c₀ 0 token = c₀.push 0 (some { token with extra := true }) k.state := by
    simp [act, hs₀.state, ht, ha, allRulesOf, lastStep?, reduceAll]
  have hoffset : (c₀.push 0 (some { token with extra := true }) k.state).offset 0 =
      token.stop.offset := hpush.offset
  refine ⟨_, hpush, rfl, ?_⟩
  rw [readOn, if_neg (by simp [h.active]), nextToken_of_fresh h hf hr]
  simp only [Tree.isError_of_symbol? ht, Bool.false_and, Bool.false_eq_true, if_false]
  rw [hact, hoffset]
  simp [hlt]

theorem rounds_round (fuel : Nat) {limit : Nat} {k' : Column} (hk : Round start k k')
    (h : Single start c k) (hf : Fresh start c k) (hlimit : 20 < limit) :
    ∃ c', Single start c' k' ∧ Fresh start c' k' ∧
      rounds limit (fuel + 1) c (k.mark start).offset =
        rounds limit fuel c' (k'.mark start).offset ∧ c.Later limit c' := by
  have hlt := hk.offset_lt
  obtain ⟨m, hm⟩ : ∃ m, limit = m + 1 + 1 := ⟨limit - 2, by omega⟩
  cases hk with
  | one ht hn htoken =>
    obtain ⟨c', isKeyword, hs', hl', hread⟩ := readOn_takes ht h hf (by omega : _ < limit)
    have hon : readOn limit (m + 1 + 1) c 0 (k.mark start).offset =
        (c', (k'.mark start).offset) := by
      rw [ht.mark, hread, if_pos htoken]
    rw [← hm] at hon
    exact rounds_ahead fuel h hs' (by omega) hl' hlt hon
  | @two empty token t _ _ k₁ _ hpos hempty hme hsame hsym hadmits ht hn htoken =>
    obtain ⟨c₁, _, hs₁, hl₁, hread₁⟩ := readOn_takes hempty h hf (by omega : _ < limit)
    have hf₁ : Fresh start c₁ k₁ := by
      intro r hr
      rw [hl₁, Option.some.injEq] at hr
      subst hr
      exact .inr (Reuse.not_holdsIn hsym hadmits)
    obtain ⟨c', _, hs', hl', hread⟩ := readOn_takes ht hs₁ hf₁ (by omega : _ < limit)
    have hon : readOn limit (m + 1 + 1) c 0 (k.mark start).offset =
        (c', (k'.mark start).offset) := by
      rw [ht.mark, hread₁, if_neg (by omega), hread, if_pos htoken]
    rw [← hm] at hon
    have hbefore : (k₁.mark start).offset < (k'.mark start).offset := by
      rw [hempty.mark, hsame]
      exact hlt
    exact rounds_ahead fuel h hs' (by omega) hl' hbefore hon
  | pass hread hsym ha htoken =>
    obtain ⟨c', hs', hl', hon⟩ :=
      readOn_pass (m + 1) h hf (by omega : 0 < limit) hread hsym ha htoken
    rw [← hm] at hon
    exact rounds_ahead fuel h hs' (by omega) hl' hlt hon

inductive Reads (start : Mark) : Nat → Column → Column → Prop where
  | refl (k : Column) : Reads start 0 k k
  | head {n : Nat} {k k₁ k' : Column} :
      Round start k k₁ → Reads start n k₁ k' → Reads start (n + 1) k k'

theorem Reads.trans {m n : Nat} {k k' k'' : Column} (h : Reads start m k k')
    (h' : Reads start n k' k'') : Reads start (m + n) k k'' := by
  induction h with
  | refl k => simpa using h'
  | head hr _ ih =>
    rw [Nat.add_right_comm]
    exact .head hr (ih h')

theorem Reads.le_offset {n : Nat} {k k' : Column} (h : Reads start n k k') :
    (k.mark start).offset + n ≤ (k'.mark start).offset := by
  induction h with
  | refl k => simp
  | head hr _ ih =>
    have := hr.offset_lt
    omega

theorem rounds_reads (fuel : Nat) {limit n : Nat} {k' : Column} (hk : Reads start n k k')
    (h : Single start c k) (hf : Fresh start c k) (hlimit : 20 < limit) :
    ∃ c', Single start c' k' ∧ Fresh start c' k' ∧
      rounds limit (fuel + n) c (k.mark start).offset =
        rounds limit fuel c' (k'.mark start).offset ∧ c.Later limit c' := by
  induction hk generalizing c with
  | refl k => exact ⟨c, h, hf, rfl, .refl c⟩
  | head hr _ ih =>
    obtain ⟨c₁, hs₁, hf₁, h₁, hlater₁⟩ := rounds_round _ hr h hf hlimit
    obtain ⟨c₂, hs₂, hf₂, h₂, hlater₂⟩ := ih hs₁ hf₁
    exact ⟨c₂, hs₂, hf₂, h₁.trans h₂, hlater₁.trans hlater₂⟩

/-- Before the end of the source so many phrases are formed, and then all is read. -/
structure Ends (start : Mark) (token : Tree) (n : Nat) (k k' : Column) : Prop where
  reads : ∃ isKeyword, readToken k.state (k.mark start) = (token, isKeyword)
  symbol : token.symbol? = some .endOfFile
  forms : Forms start .endOfFile n k k'
  state : k'.state = Automaton.final

theorem actions_final : Automaton.actions Automaton.final .endOfFile = [.accept] := by decide

theorem rounds_ends (fuel : Nat) {limit n : Nat} {token tree : Tree} {k' : Column}
    (he : Ends start token n k k') (hn : n ≤ 20) (h : Single start c k) (hf : Fresh start c k)
    (hlimit : 20 < limit) (htree : wholeTree token.stop (k'.trees ++ [token]) = some tree) :
    (rounds limit (fuel + 1) c (k.mark start).offset).best? = some tree := by
  obtain ⟨isKeyword, hr⟩ := he.reads
  obtain ⟨m, hm⟩ : ∃ m, limit = m + 1 + 1 := ⟨limit - 2, by omega⟩
  obtain ⟨l, hl⟩ : ∃ l, limit = l + 1 + n := ⟨limit - n - 1, by omega⟩
  let c₀ : Contest :=
    { c with latest? := some ⟨(k.mark start).offset, token, k.state, isKeyword⟩ }
  obtain ⟨c₁, hact, hs₁, _⟩ := act_forms he.forms (h.withLatest _ : Single start c₀ k) he.symbol
  have hpush := hs₁.push token Automaton.initial
  obtain ⟨i, hv, hstands⟩ := hpush.version
  -- what the version leaves behind when it has read everything
  let c₂ : Contest :=
    { c₁.push 0 (some token) Automaton.initial with
      versions := #[{ top := i, status := .halted }], best? := some tree
      finished := c₁.finished + 1 }
  have hways : (c₁.push 0 (some token) Automaton.initial).places.wholeWays i =
      [k'.trees ++ [token]] := by
    rw [hstands.wholeWays]
    simp [Column.trees]
  have haccept : act limit c₀ 0 token = c₂ := by
    rw [hl, hact, act]
    simp only [hs₁.state, he.state, he.symbol, Option.map_some, actions_final, Option.getD_some,
      allRulesOf, List.filterMap_cons, List.filterMap_nil, reduceAll, lastStep?, List.find?_cons]
    simp only [accept, Contest.version, hv, List.size_toArray, List.length_cons, List.length_nil,
      Nat.zero_add, Nat.lt_add_one, getElem?_pos, List.getElem_toArray, List.getElem_cons_zero,
      Option.getD_some, hways, List.filterMap_cons, List.filterMap_nil, htree, List.foldl_cons,
      List.foldl_nil, offer, hpush.unfinished, setStatus, setVersion]
    rfl
  have hoffset : c₂.offset 0 = token.stop.offset := by
    have := hpush.offset
    simpa [Contest.offset, Contest.top, Contest.version, hv, c₂, Column.mark] using this
  have hon : ∃ far, readOn limit (m + 1 + 1) c 0 (k.mark start).offset = (c₂, far) := by
    rw [readOn, if_neg (by simp [h.active]), nextToken_of_fresh h hf hr]
    simp only [Tree.isError_of_symbol? he.symbol, Bool.false_and, Bool.false_eq_true, if_false]
    rw [haccept, hoffset]
    by_cases hlt : (k.mark start).offset < token.stop.offset
    · exact ⟨token.stop.offset, by simp [hlt]⟩
    · exact ⟨(k.mark start).offset, by simp [hlt, readOn, Contest.version, c₂, Status.isActive]⟩
  rw [← hm] at hon
  obtain ⟨far, hon⟩ := hon
  have hall : readAll limit (m + 1 + 1) c 0 (k.mark start).offset = (c₂, far) := by
    rw [readAll, if_neg (by simp [h.size]), hon]
    simp [readAll, c₂]
  rw [← hm] at hall
  rw [rounds, hall]
  simp [c₂, condense, siftAll, Contest.version, Status.isHalted, removeVersion, resume,
    versionLimit]

theorem single_start (source : Text.Bytes) :
    Single (.ofSource source) (Contest.start source) [] ∧
      Fresh (.ofSource source) (Contest.start source) [] :=
  ⟨⟨⟨0, rfl, ⟨_, rfl, rfl, rfl, rfl⟩⟩, rfl, rfl⟩, nofun⟩

theorem rounds_start {source : Text.Bytes} {m : Nat} {k : Column}
    (hk : Reads (.ofSource source) m [] k)
    (hbound : (k.mark (.ofSource source)).offset ≤ source.length) :
    ∃ c fuel, Single (.ofSource source) c k ∧ Fresh (.ofSource source) c k ∧
      (Contest.start source).rounds (stepLimit source) (stepLimit source) 0 =
        c.rounds (stepLimit source) (fuel + 3) (k.mark (.ofSource source)).offset ∧
      (Contest.start source).Later (stepLimit source) c := by
  have hm := hk.le_offset
  obtain ⟨fuel, hfuel⟩ : ∃ f, stepLimit source = f + 3 + m :=
    ⟨stepLimit source - m - 3, by unfold stepLimit; omega⟩
  obtain ⟨hsingle, hfresh⟩ := single_start source
  obtain ⟨c, hs, hf, hrounds, hlater⟩ := rounds_reads (fuel + 3) hk hsingle hfresh
    (by unfold stepLimit; omega : 20 < stepLimit source)
  rw [← hfuel] at hrounds
  exact ⟨c, fuel, hs, hf, hrounds, hlater⟩

/-- One version reads the source from its beginning to its end, as a file with this tree. At no token
is there more than one way to go on, and every token fits. -/
inductive Straight (source : Text.Bytes) : Tree → Prop where
  | intro {m n : Nat} {k k' : Column} {token tree : Tree} :
      Reads (.ofSource source) m [] k → Ends (.ofSource source) token n k k' → n ≤ 20 →
      (k.mark (.ofSource source)).offset ≤ source.length →
      wholeTree token.stop (k'.trees ++ [token]) = some tree →
      tree.label = .phrase .sourceFile → Straight source tree

theorem Straight.readTree {source : Text.Bytes} {tree : Tree} (h : Straight source tree) :
    readTree source = tree := by
  obtain ⟨hk, he, hn, hbound, htree, -⟩ := h
  obtain ⟨c, fuel, hs, hf, hrounds, -⟩ := rounds_start hk hbound
  have hbest := rounds_ends (fuel + 2) he hn hs hf
    (by unfold stepLimit; omega : 20 < stepLimit source) htree
  rw [← hrounds] at hbest
  simp only [Source.readTree, hbest, Option.getD_some]

end ImportGroups.Source
