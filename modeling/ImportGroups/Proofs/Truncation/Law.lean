import ImportGroups.Proofs.Soundness.Rounds
import ImportGroups.Proofs.Truncation.Depths
import ImportGroups.Proofs.Truncation.Guilt

/-!
What a reading keeps to behind an import block that is not closed.

Up to a front all versions of the reading have the same trees: the items of the file, the word
`import` and the parenthesis that opens the block. Behind the front stands no closing parenthesis.
Whatever the reader does then, the first tree above the bottom starts with the items, the first tree
behind the items starts with the word, and a declaration that is formed from the word has a fault in
it. So the imports are unknown by every tree of the whole source.
-/

namespace ImportGroups.Source

open Text (Bytes)
open Automaton (lost rulesBefore after Depths)

structure Cut where
  src : Bytes
  /-- Where the word `import` stands. -/
  word : Nat
  /-- Where the word ends. -/
  behind : Nat
  /-- How far the source is read without a fault. -/
  front : Nat
  pos : 0 < word
  word_lt : word < behind
  behind_lt : behind < front
  front_le : front ≤ src.length
  unclosed : ∀ a, front ≤ a → src[a]? ≠ some 0x29

namespace Cut

variable {k : Cut} {found : Bool} {b m s : Stand} {t : Tree} {ts : List Tree} {n : Nat}

structure Opens (b : Stand) (t : Tree) : Prop where
  state : b.state = 3
  label : t.label = .token .leftParen
  extra : t.extra = false

/-- What is asked of a tree above a place. -/
structure Keeps (k : Cut) (b : Stand) (t : Tree) : Prop where
  items : b.offset < k.word →
    b.offset = 0 ∧ t.Front k.word ∧ (¬ t.IsLeft → b.state = Automaton.initial)
  word : b.offset = k.word → t.Crosses k.word k.behind ∧ (¬ t.IsLeft → b.state = 7)
  inside : b.offset = k.behind → Opens b t ∨ Faulty t.outline ∨ t.IsLeft
  closing : k.word < b.offset → t.label = .token .rightParen → t.missing = true

/-- The law of a reading behind the front, before or after a tree of the whole source was found. -/
def law (k : Cut) (found : Bool) : Law where
  src := k.src
  front := k.front
  keeps := k.Keeps
  best o := (found = true → o.isSome = true) ∧ ∀ t ∈ o, t.IsFaulty k.src.length

theorem keeps_of_behind (hb : k.behind < b.offset)
    (h : t.label = .token .rightParen → t.missing = true) : k.Keeps b t := by
  have hword := k.word_lt
  exact ⟨fun hlt => absurd hlt (by omega), fun heq => absurd heq (by omega),
    fun heq => absurd heq (by omega), fun _ => h⟩

theorem keeps_of_front (hb : k.front ≤ b.offset)
    (h : t.label = .token .rightParen → t.missing = true) : k.Keeps b t :=
  keeps_of_behind (Nat.lt_of_lt_of_le k.behind_lt hb) h

theorem rightParen_not_token (hb : k.front ≤ b.offset) (h : t.IsToken k.src b.offset) :
    t.label ≠ .token .rightParen := by
  intro hlabel
  rcases (h.sound.isTokenOf hlabel).sign 0x29 rfl with hspells | ⟨-, hputIn⟩
  · exact k.unclosed _ (Nat.le_trans hb h.behind) hspells.byte
  · exact absurd hputIn.missing (by simp [h.missing])

end Cut

namespace Tree

variable {i j : Nat} {t c : Tree} {cs : List Tree}

theorem not_isLeft_of_part {b s : State} (h : IsPart b s t) (hs : s ≠ lost) : ¬ t.IsLeft := by
  rintro (hlabel | ⟨hlabel, -⟩)
  · exact hs (h.state.trans (by rw [hlabel]; rfl))
  · exact hs (h.state.trans (by rw [hlabel]; rfl))

theorem outline_ranked (t : Tree) (rank : Int) : { t with rank }.outline = t.outline := by
  rw [outline_eq, outline_eq]
  rfl

theorem others_ranked (t : Tree) (rank : Int) : { t with rank }.others = t.others := by
  cases hv : t.isVisible with
  | true =>
    cases hi : t.isHeaderItem with
    | true => rw [others_of_headerItem hv hi, others_of_headerItem (t := { t with rank }) hv hi]
    | false => rw [others_of_item hv hi, others_of_item (t := { t with rank }) hv hi]
  | false => rw [others_of_hidden hv, others_of_hidden (t := { t with rank }) hv]

theorem Front.ranked (h : t.Front i) (rank : Int) : { t with rank }.Front i := by
  cases h with
  | head h => exact .head ⟨h.label, h.extra, h.start, h.le, h.clause, h.others, h.guilty⟩
  | left hleft hstart hchildren hc => exact .left hleft hstart hchildren hc

theorem Crosses.ranked (h : t.Crosses i j) (rank : Int) : { t with rank }.Crosses i j := by
  cases h with
  | word h => exact .word ⟨h.label, h.extra, h.start, h.stop⟩
  | declaration h =>
    refine .declaration ⟨h.label, h.extra, h.start, h.lt, ?_, ?_⟩
    · rw [others_ranked]
      exact h.others
    · rw [outline_ranked]
      exact h.guilty
  | left hleft hstart hchildren hc => exact .left hleft hstart hchildren hc

/-- What may stand anywhere and starts with the items is an error. -/
theorem Front.isLeft_of_extra (h : t.Front i) (hextra : t.extra = true) : t.IsLeft := by
  cases h with
  | head h => simp [h.extra] at hextra
  | left hleft => exact hleft

theorem Front.first_of_error (h : t.Front i) (hlabel : t.label = .error) :
    ∃ c cs, t.children = c :: cs ∧ c.Front i := by
  cases h with
  | head h => rcases h.label with h | h <;> simp [hlabel] at h
  | left _ _ hchildren hc => exact ⟨_, _, hchildren, hc⟩

theorem Crosses.first_of_error (h : t.Crosses i j) (hlabel : t.label = .error) :
    ∃ c cs, t.children = c :: cs ∧ c.Crosses i j := by
  cases h with
  | word h => exact absurd h.label (by simp [hlabel])
  | declaration h => rcases h.label with h | h <;> simp [hlabel] at h
  | left _ _ hchildren hc => exact ⟨_, _, hchildren, hc⟩

end Tree

namespace Cut

variable {k : Cut} {found : Bool} {b m s : Stand} {t : Tree} {ts : List Tree} {n : Nat}

theorem keeps_left {q : State} {a : Nat} {t u : Tree} {us : List Tree}
    (h : a < k.word → a = 0 ∧ u.Front k.word) (h' : a = k.word → u.Crosses k.word k.behind)
    (hleft : t.IsLeft) (hchildren : t.children = u :: us) (hstart : t.start = u.start) :
    k.Keeps ⟨q, a⟩ t := by
  refine ⟨fun ha => ?_, fun ha => ?_, fun _ => .inr (.inr hleft), fun _ hlabel => ?_⟩
  · obtain ⟨hzero, hfront⟩ := h ha
    have hstart' : t.start.offset = 0 := by rw [hstart, hfront.start]
    exact ⟨hzero, .left hleft hstart' hchildren hfront, fun hnot => absurd hleft hnot⟩
  · have hcrosses := h' ha
    have hstart' : t.start.offset = k.word := by rw [hstart, hcrosses.start]
    exact ⟨.left hleft hstart' hchildren hcrosses, fun hnot => absurd hleft hnot⟩
  · rcases hleft with h | ⟨h, -⟩ <;> simp [hlabel] at h

theorem Keeps.ranked (h : k.Keeps b t) (rank : Int) : k.Keeps b { t with rank } where
  items hb := ⟨(h.items hb).1, (h.items hb).2.1.ranked rank, (h.items hb).2.2⟩
  word hb := ⟨(h.word hb).1.ranked rank, (h.word hb).2⟩
  inside hb := by
    rcases h.inside hb with h | h | h
    · exact .inl ⟨h.state, h.label, h.extra⟩
    · refine .inr (.inl ?_)
      rwa [Tree.outline_ranked]
    · exact .inr (.inr h)
  closing := h.closing

theorem Keeps.moved {q q' : State} {a : Nat} (h : k.Keeps ⟨q, a⟩ t) (hextra : t.extra = true) :
    k.Keeps ⟨q', a⟩ t where
  items ha := by
    obtain ⟨hzero, hfront, -⟩ := h.items ha
    exact ⟨hzero, hfront, fun hnot => absurd (hfront.isLeft_of_extra hextra) hnot⟩
  word ha := by
    obtain ⟨hcrosses, -⟩ := h.word ha
    exact ⟨hcrosses, fun hnot => absurd (.inl (hcrosses.error_of_extra hextra)) hnot⟩
  inside ha := by
    rcases h.inside ha with h | h
    · simp [h.extra] at hextra
    · exact .inr h
  closing := h.closing

end Cut

namespace Way

variable {L : Law} {k : Cut} {found : Bool} {b m s : Stand} {t : Tree} {ts : List Tree} {n : Nat}
  {r : Rule} {u : Symbol}

theorem exists_first (h : Way L b ts r.parts s) (hr : r ∈ rulesBefore s.state u)
    (hfirst : ∀ t ∈ ts.head?, t.extra = false) (hne : ts ≠ []) :
    ∃ t ts' m n, ts = t :: ts' ∧ r.parts = n + 1 ∧ Rung L b m t ∧ IsPart b.state m.state t ∧
      ¬ t.IsLeft ∧ Way L m ts' n s := by
  have hs : s.state ≠ lost := by
    intro hs
    rw [hs, Automaton.rulesBefore_lost] at hr
    cases hr
  cases ts with
  | nil => exact absurd rfl hne
  | cons t ts =>
    have ht := hfirst t rfl
    cases hn : r.parts with
    | zero =>
      rw [hn] at h
      have hextra := h.extra_of_zero t List.mem_cons_self
      simp [ht] at hextra
    | succ n =>
      rw [hn] at h
      obtain ⟨m, hrung, hpart, hrest⟩ := h.firstPart hs ht
      have hm : m.state ≠ lost := fun hm => hs (hrest.of_lost hm)
      exact ⟨t, ts, m, n, rfl, rfl, hrung, hpart, Tree.not_isLeft_of_part hpart hm, hrest⟩

theorem state_of_one (h : Way L b ts 1 s) (hs : s.state ≠ lost) : ∃ l, s.state = after b.state l := by
  obtain ⟨us, t, es, m, m', -, hus, -, hpart, hes⟩ := h.lastPart hs
  exact ⟨t.label, by rw [hes.state_of_zero, hpart.state, hus.state_of_zero]⟩

theorem others_lt {i : Nat} (h : Way L b ts n s) (hb : i < b.offset) :
    ∀ o ∈ ts.flatMap Tree.others, i < o.offset := by
  intro o ho
  obtain ⟨t, ht, ho⟩ := List.mem_flatMap.mp ho
  have hstart := (h.between.bounds t ht).1
  have hle := (h.sound t ht).le_others o ho
  omega

/-- A way from where the items before the word end. Nothing else starts there than the declaration,
and it has a fault. -/
theorem behind_items (h : Way (k.law found) m ts n s) (hm : k.word ≤ m.offset)
    (hn : n = 0 ∨ n = 1 ∧ s.state ≠ lost ∧ s.state ≠ after m.state (.token .importWord)) :
    (∀ o ∈ ts.flatMap Tree.others, k.word < o.offset) ∧
      (m.offset = k.word → ts ≠ [] → Guilty k.word (ts.flatMap Tree.outline)) := by
  rcases Nat.lt_or_eq_of_le hm with hlt | heq
  · exact ⟨h.others_lt hlt, fun heq => absurd heq (by omega)⟩
  · cases ts with
    | nil => exact ⟨by simp, fun _ hne => absurd rfl hne⟩
    | cons t ts =>
      obtain ⟨q, hkeeps⟩ := h.head_keeps
      obtain ⟨hcrosses, -⟩ := hkeeps.word heq.symm
      have hsound := h.sound t List.mem_cons_self
      have hbetween := h.between
      have hfirst : (∀ o ∈ t.others, k.word < o.offset) ∧ Guilty k.word t.outline := by
        cases hextra : t.extra with
        | true =>
          have hlabel := hcrosses.error_of_extra hextra
          rw [Tree.others_of_error hlabel]
          exact ⟨by simp, hcrosses.guilty_of_error hsound.counted hlabel⟩
        | false =>
          have hzero : n ≠ 0 := by
            rintro rfl
            exact absurd (h.extra_of_zero t List.mem_cons_self) (by simp [hextra])
          obtain ⟨rfl, hs, hword⟩ := hn.resolve_left hzero
          obtain ⟨m', hrung, hpart, hrest⟩ := h.firstPart hs hextra
          have hstate := hrest.state_of_zero
          cases hcrosses with
          | word h => exact absurd (hstate.trans (h.label ▸ hpart.state)) hword
          | declaration h => exact ⟨h.others, h.guilty⟩
          | left hleft => exact absurd hleft (Tree.not_isLeft_of_part hpart (hstate ▸ hs))
      have hrest : ∀ o ∈ ts.flatMap Tree.others, k.word < o.offset := by
        intro o ho
        obtain ⟨t', ht', ho⟩ := List.mem_flatMap.mp ho
        have hstop := hcrosses.lt hsound k.word_lt
        have hstart := (hbetween.2.2.bounds t' ht').1
        have hle := (h.sound t' (List.mem_cons_of_mem _ ht')).le_others o ho
        omega
      refine ⟨?_, fun _ _ => hfirst.2.mono (by simp)⟩
      rw [List.flatMap_cons]
      exact fun o ho => (List.mem_append.mp ho).elim (hfirst.1 o) (hrest o)

theorem node_stop {l : Label} {here : Mark} (h : Way L b ts n s) (hne : ts ≠ []) :
    (Tree.node l ts here).stop.offset = s.offset := by
  have hstop := h.stop
  rw [List.getLast?_eq_some_getLast hne] at hstop
  show ((ts.getLast?.map (·.stop)).getD here).offset = s.offset
  rwa [List.getLast?_eq_some_getLast hne]

end Way

namespace Cut

variable {k : Cut} {found : Bool} {b m s : Stand} {t : Tree} {ts : List Tree} {n : Nat} {r : Rule}
  {u : Symbol}

theorem ne_lost_of_rule (hr : r ∈ rulesBefore s.state u) : s.state ≠ lost := by
  intro hs
  rw [hs, Automaton.rulesBefore_lost] at hr
  cases hr

theorem head_formed (ht : t.IsHead k.word) (hb : b.state = Automaton.initial)
    (hrung : Rung (k.law found) b m t) (hpart : IsPart b.state m.state t)
    (hrest : Way (k.law found) m ts n s) (hr : r ∈ rulesBefore s.state u) (hn : r.parts = n + 1)
    (hlast : ∀ x ∈ (t :: ts).getLast?, x.extra = false) (here : Mark) :
    (Tree.node (.phrase r.phrase) (t :: ts) here).IsHead k.word := by
  have hsteps := Automaton.itemSteps
  have hmstate : m.state = after Automaton.initial t.label := hb ▸ hpart.state
  rcases ht.label with hlabel | hlabel <;> rw [hlabel] at hmstate
  · have hm : m.state = 7 := hmstate.trans hsteps.items
    have hrule := hrest.rule_mem Automaton.depths_file (by rw [hm]; decide) hr (by omega)
    have hcases : (r.phrase = .sourceFile ∨ r.phrase = .fileItems) ∧
        (n = 0 ∨ n = 1 ∧ s.state ≠ lost ∧ s.state ≠ 3) := by
      simp only [Automaton.fileRules, List.mem_cons, Prod.mk.injEq, List.not_mem_nil, or_false]
        at hrule
      rcases hrule with ⟨hs, rfl⟩ | ⟨hs, rfl⟩ | ⟨hs, rfl⟩
      · exact ⟨.inl rfl, .inl (by simpa using hn.symm)⟩
      · exact ⟨.inl rfl, .inr ⟨by simpa using hn.symm, by rw [hs]; decide⟩⟩
      · exact ⟨.inr rfl, .inr ⟨by simpa using hn.symm, by rw [hs]; decide⟩⟩
    have hoffset : m.offset = t.stop.offset := hrung.stop.symm
    obtain ⟨hothers, hguilty⟩ := hrest.behind_items (hoffset ▸ ht.le)
      (by rw [hm, hsteps.word]; exact hcases.2)
    have hhidden : t.isVisible = false := by
      simp [Tree.isVisible, hlabel, Label.isVisible, Phrase.isVisible]
    have hsub : t.children.flatMap Tree.outline ⊆ (t :: ts).flatMap Tree.outline := by
      rw [List.flatMap_cons]
      exact fun e he => List.mem_append_left _ (Tree.flatMap_outline_subset t he)
    have hstop : (Tree.node (.phrase r.phrase) (t :: ts) here).stop.offset = s.offset :=
      (Way.part hrung hpart hrest).node_stop (List.cons_ne_nil _ _)
    have hle := hrest.between.le
    have hle' := ht.le
    refine ⟨?_, rfl, ht.start, by omega, ht.clause.mono hsub, ?_, ?_⟩
    · exact hcases.1.symm.imp (congrArg Label.phrase) (congrArg Label.phrase)
    · show ∀ o ∈ (t :: ts).flatMap Tree.others, k.word < o.offset
      rw [List.flatMap_cons, Tree.others_of_hidden hhidden]
      exact fun o ho => (List.mem_append.mp ho).elim (ht.others o) (hothers o)
    · rcases ht.guilty with heq | hg
      · by_cases hnil : ts = []
        · subst hnil
          exact .inl heq
        · refine .inr ((hguilty (hoffset.trans heq) hnil).mono ?_)
          show _ ⊆ (t :: ts).flatMap Tree.outline
          rw [List.flatMap_cons]
          exact List.subset_append_right _ _
      · exact .inr (hg.mono hsub)
  · -- nothing comes after a whole file
    have hm : m.state = 4 := hmstate.trans hsteps.whole
    exact absurd (hrest.rule_mem Automaton.depths_whole (by rw [hm]; decide) hr (by omega))
      List.not_mem_nil

/-- What stands between the word and the end of the declaration has a fault in it, as the block was
not closed. -/
theorem faulty_behind (h : Way (k.law found) m ts 1 s) (hm : m.offset = k.behind)
    (hword : m.state = 3) (hs : s.state = 15) : Faulty (ts.flatMap Tree.outline) := by
  have hlost : s.state ≠ lost := by
    rw [hs]
    decide
  cases ts with
  | nil =>
    cases h with
    | gap h => exact absurd (h.of_lost rfl) hlost
  | cons t ts =>
    have hfirst : Faulty t.outline := by
      cases hextra : t.extra with
      | true =>
        obtain ⟨q, hkeeps⟩ := h.head_keeps
        rcases hkeeps.inside hm with hopens | hfaulty | hleft | ⟨-, hleft⟩
        · simp [hopens.extra] at hextra
        · exact hfaulty
        · exact ⟨_, _, Tree.fault_of_error hleft⟩
        · simp [hleft] at hextra
      | false =>
        obtain ⟨m', hrung, hpart, hrest⟩ := h.firstPart hlost hextra
        have hstate := hrest.state_of_zero
        rcases hrung.keeps.inside hm with hopens | hfaulty | hleft
        · rw [hpart.state, hopens.label, hword, Automaton.itemSteps.paren, hs] at hstate
          exact absurd hstate (by decide)
        · exact hfaulty
        · exact absurd hleft (Tree.not_isLeft_of_part hpart (hstate ▸ hlost))
    exact hfirst.mono (by simp)

theorem word_formed (ht : t.IsWord k.word k.behind) (hb : b.state = 7)
    (hrung : Rung (k.law found) b m t) (hpart : IsPart b.state m.state t)
    (hrest : Way (k.law found) m ts n s) (hr : r ∈ rulesBefore s.state u) (hn : r.parts = n + 1)
    (here : Mark) : (Tree.node (.phrase r.phrase) (t :: ts) here).IsOpenDeclaration k.word := by
  have hm : m.state = 3 := by rw [hpart.state, hb, ht.label, Automaton.itemSteps.word]
  have hrule := hrest.rule_mem Automaton.depths_import (by rw [hm]; decide) hr (by omega)
  obtain ⟨hs, rfl⟩ := Prod.mk.inj (List.mem_singleton.mp hrule)
  obtain rfl : n = 1 := by simpa using hn.symm
  dsimp only
  have hoffset : m.offset = k.behind := hrung.stop.symm.trans ht.stop
  have hway := Way.part hrung hpart hrest
  have hstop : (Tree.node (.phrase .importDeclaration) (t :: ts) here).stop.offset = s.offset :=
    hway.node_stop (List.cons_ne_nil _ _)
  have hle := hrest.between.le
  have hlt := k.word_lt
  refine ⟨.inl rfl, rfl, ht.start, by omega, ?_, .inr ?_⟩
  · rw [Tree.others_of_headerItem rfl rfl]
    exact List.forall_mem_nil _
  · obtain ⟨spot, o, hspot⟩ := faulty_behind hrest hoffset hm hs
    have hmem : .fault spot o ∈ (t :: ts).flatMap Tree.outline := by
      rw [List.flatMap_cons]
      exact List.mem_append_right _ hspot
    obtain ⟨c, hc, hspot'⟩ := List.mem_flatMap.mp hmem
    have hbound := ((hway.sound c hc).fault_le hspot').2
    have hinside := (hway.between.bounds c hc).2
    refine ⟨t.start.toSpot, (Tree.node (.phrase .importDeclaration) (t :: ts) here).stop.toSpot, spot, o,
      ht.start, ?_, ?_, ?_⟩
    · rw [Tree.outline_eq]
      exact List.mem_append_left _ (List.mem_singleton_self _)
    · rw [Tree.outline_eq]
      exact List.mem_append_right _ hmem
    · show spot.offset ≤ (Tree.node (.phrase .importDeclaration) (t :: ts) here).stop.offset
      omega

/-- What is formed from the declaration and from what follows it is the declaration with the items
behind it. -/
theorem declaration_formed (ht : t.IsOpenDeclaration k.word) (hb : b.state = 7)
    (hrung : Rung (k.law found) b m t) (hpart : IsPart b.state m.state t)
    (hrest : Way (k.law found) m ts n s) (hr : r ∈ rulesBefore s.state u) (hn : r.parts = n + 1)
    (here : Mark) : (Tree.node (.phrase r.phrase) (t :: ts) here).IsOpenDeclaration k.word := by
  have hsteps := Automaton.itemSteps
  have hstate : m.state = after 7 t.label := hb ▸ hpart.state
  have hlost := ne_lost_of_rule hr
  have hphrase : r.phrase = .fileItems := by
    rcases ht.label with hlabel | hlabel <;> rw [hlabel] at hstate
    · have hm : m.state = 23 := hstate.trans hsteps.declaration
      have hrule := hrest.rule_mem Automaton.depths_item (by rw [hm]; decide) hr (by omega)
      simp only [List.mem_cons, Prod.mk.injEq, List.not_mem_nil, or_false] at hrule
      rcases hrule with ⟨-, rfl⟩ | ⟨hs, rfl⟩
      · rfl
      · obtain rfl : n = 1 := by simpa using hn.symm
        obtain ⟨l, hl⟩ := hrest.state_of_one hlost
        rw [hm, hs] at hl
        exact absurd hl.symm (Automaton.after_ne_item (by decide) l)
    · have hm : m.state = 24 := hstate.trans hsteps.moreItems
      have hrule := hrest.rule_mem Automaton.depths_file (by rw [hm]; decide) hr (by omega)
      simp only [Automaton.fileRules, List.mem_cons, Prod.mk.injEq, List.not_mem_nil, or_false]
        at hrule
      rcases hrule with ⟨hs, rfl⟩ | ⟨hs, rfl⟩ | ⟨-, rfl⟩
      · obtain rfl : n = 0 := by simpa using hn.symm
        have hsame := hrest.state_of_zero
        rw [hs, hm] at hsame
        exact absurd hsame (by decide)
      · obtain rfl : n = 1 := by simpa using hn.symm
        obtain ⟨l, hl⟩ := hrest.state_of_one hlost
        rw [hm, hs] at hl
        exact absurd hl.symm (Automaton.after_ne_item (by decide) l)
      · rfl
  have hstop : (Tree.node (.phrase r.phrase) (t :: ts) here).stop.offset = s.offset :=
    (Way.part hrung hpart hrest).node_stop (List.cons_ne_nil _ _)
  have hoffset : m.offset = t.stop.offset := hrung.stop.symm
  have hlt := ht.lt
  have hle := hrest.between.le
  have hothers := hrest.others_lt (i := k.word) (by omega)
  rw [hphrase] at hstop ⊢
  refine ⟨.inr rfl, rfl, ht.start, by omega, ?_, ?_⟩
  · rw [Tree.others_of_hidden rfl]
    show ∀ o ∈ (t :: ts).flatMap Tree.others, k.word < o.offset
    rw [List.flatMap_cons]
    exact fun o ho => (List.mem_append.mp ho).elim (ht.others o) (hothers o)
  · exact ht.guilty.mono (Tree.outline_subset List.mem_cons_self)

theorem block_formed (ht : Opens b t) (hb : b.offset = k.behind)
    (hrung : Rung (k.law found) b m t) (hpart : IsPart b.state m.state t)
    (hrest : Way (k.law found) m ts n s) (hr : r ∈ rulesBefore s.state u) (hn : r.parts = n + 1) :
    Faulty (ts.flatMap Tree.outline) := by
  have hm : m.state = 10 := by rw [hpart.state, ht.state, ht.label, Automaton.itemSteps.paren]
  have hdepth : Automaton.listedDepth Automaton.blockDepths m.state = 0 := by
    rw [hm]
    decide
  have hrule := hrest.rule_mem Automaton.depths_block hdepth hr (by omega)
  have hlost := ne_lost_of_rule hr
  have hparts : ∀ x ∈ Automaton.blockRules, 2 ≤ x.2.parts ∧ x.2.parts ≤ 5 := by decide
  have hbound : 2 ≤ r.parts ∧ r.parts ≤ 5 := hparts _ hrule
  obtain ⟨n, rfl⟩ : ∃ n', n = n' + 1 := ⟨n - 1, by omega⟩
  obtain ⟨us, t', es, m₁, m₂, rfl, hus, hrung', hpart', hes⟩ := hrest.lastPart hlost
  have hm₂ := hes.state_of_zero
  have hm₁ : m₁.state ≠ lost := by
    intro h
    have hstate := hpart'.state
    rw [h, Automaton.after_lost] at hstate
    exact hlost (hm₂.trans hstate)
  have hdeep := hus.depth_le Automaton.depths_block hm₁
  rw [hdepth] at hdeep
  have hlabel : t'.label = .token .rightParen := by
    refine Automaton.rightParen_of_after (s := m₁.state) ?_ ⟨_, hrule, ?_⟩
    · exact Nat.lt_of_le_of_lt hdeep (by unfold Automaton.unreached; omega)
    · rw [← hpart'.state]
      exact hm₂.symm
  have hoffset : k.word < m₁.offset := by
    have hword := k.word_lt
    have hle := (Way.part hrung hpart hus).between.le
    omega
  have hmissing := hrung'.keeps.closing hoffset hlabel
  have hevent : t'.event? = some (.fault t'.start.toSpot t'.isOpenImport) := by
    simp [Tree.event?, Tree.isVisible, hlabel, Label.isVisible, Symbol.isVisible, hmissing]
  refine ⟨t'.start.toSpot, t'.isOpenImport, List.mem_flatMap.mpr ⟨t', by simp, ?_⟩⟩
  rw [Tree.outline_eq, hevent]
  exact List.mem_append_left _ (List.mem_singleton_self _)

theorem keeps_formed (here : Mark) (h : Way (k.law found) b ts r.parts s)
    (hr : r ∈ rulesBefore s.state u) (hfirst : ∀ t ∈ ts.head?, t.extra = false)
    (hlast : ∀ t ∈ ts.getLast?, t.extra = false) (hempty : ts = [] → k.front ≤ b.offset) :
    k.Keeps b (.node (.phrase r.phrase) ts here) := by
  have hword := k.word_lt
  have hbehind := k.behind_lt
  by_cases hne : ts = []
  · exact keeps_of_front (hempty hne) (by simp [Tree.node])
  · obtain ⟨t, ts, m, n, rfl, hn, hrung, hpart, hleft, hrest⟩ := h.exists_first hr hfirst hne
    refine ⟨fun hb => ?_, fun hb => ?_, fun hb => .inr (.inl ?_), fun _ => by simp [Tree.node]⟩
    · obtain ⟨hzero, hfront, hstate⟩ := hrung.keeps.items hb
      have hhead := head_formed (hfront.isHead hleft) (hstate hleft) hrung hpart hrest hr hn hlast here
      exact ⟨hzero, .head hhead, fun _ => hstate hleft⟩
    · obtain ⟨hcrosses, hstate⟩ := hrung.keeps.word hb
      refine ⟨.declaration ?_, fun _ => hstate hleft⟩
      cases hcrosses with
      | word ht => exact word_formed ht (hstate hleft) hrung hpart hrest hr hn here
      | declaration ht => exact declaration_formed ht (hstate hleft) hrung hpart hrest hr hn here
      | left h => exact absurd h hleft
    · have hfaulty : Faulty ((t :: ts).flatMap Tree.outline) := by
        rw [List.flatMap_cons]
        rcases hrung.keeps.inside hb with hopens | hfaulty | h
        · exact (block_formed hopens hb hrung hpart hrest hr hn).mono (List.subset_append_right _ _)
        · exact hfaulty.mono (List.subset_append_left _ _)
        · exact absurd h hleft
      exact hfaulty.mono (Tree.flatMap_outline_subset (.node (.phrase r.phrase) (t :: ts) here))

theorem accepted {m' : Stand} {us es : List Tree} {token : Tree}
    (hus : Way (k.law found) ⟨Automaton.initial, 0⟩ us 0 m) (hrung : Rung (k.law found) m m' t)
    (hlabel : t.label = .phrase .sourceFile) (hes : Way (k.law found) m' es 0 s)
    (hfront : k.front ≤ s.offset) (htoken : token.IsToken k.src s.offset) :
    Tree.IsFaulty k.src.length
      (.node (.phrase .sourceFile) (us ++ t.children ++ (es ++ [token])) token.stop) := by
  have hcounted : ∀ c ∈ us ++ t.children ++ (es ++ [token]), c.Counted := by
    intro c hc
    simp only [List.mem_append, List.mem_singleton] at hc
    rcases hc with (hc | hc) | hc | rfl
    · exact (hus.sound c hc).counted
    · exact (hrung.sound.children c hc).counted
    · exact (hes.sound c hc).counted
    · exact htoken.sound.counted
  have hroot : Tree.Counted
      (.node (.phrase .sourceFile) (us ++ t.children ++ (es ++ [token])) token.stop) :=
    Tree.counted_node hcounted
  have hsub := Tree.flatMap_outline_subset
    (.node (.phrase .sourceFile) (us ++ t.children ++ (es ++ [token])) token.stop)
  have hword := k.word_lt
  have hbehind := k.behind_lt
  cases us with
  | cons e us =>
    -- something was left out where the source begins
    obtain ⟨q, hkeeps⟩ := hus.head_keeps
    obtain ⟨-, hitems, -⟩ := hkeeps.items k.pos
    have herror : e.label = .error := by
      rcases hitems.isLeft_of_extra (hus.extra_of_zero e List.mem_cons_self) with h | ⟨-, h⟩
      · exact h
      · simp [hus.extra_of_zero e List.mem_cons_self] at h
    have hout : e.outline ⊆ _ := Tree.outline_subset
      (t := .node (.phrase .sourceFile) (e :: us ++ t.children ++ (es ++ [token])) token.stop)
      List.mem_cons_self
    exact Tree.isFaulty_of_zero hroot (hitems.hasClause.mono hout)
      (hout (Tree.fault_of_error herror)) hitems.start
  | nil =>
    cases hus
    obtain ⟨-, hitems, -⟩ := hrung.keeps.items k.pos
    have hhead := hitems.isHead (by rintro (h | ⟨h, -⟩) <;> simp [hlabel] at h)
    have hoffset : m'.offset = t.stop.offset := hrung.stop.symm
    obtain ⟨hothers, hguilty⟩ := hes.behind_items (hoffset ▸ hhead.le) (.inl rfl)
    have hout : t.children.flatMap Tree.outline ⊆
        (t.children ++ (es ++ [token])).flatMap Tree.outline := by
      rw [List.flatMap_append]
      exact List.subset_append_left _ _
    refine Tree.isFaulty_of_guilty hroot (hhead.clause.mono fun x hx => hsub (hout hx)) ?_ ?_
      (i := k.word) ?_
    · show ∀ o ∈ (t.children ++ (es ++ [token])).flatMap Tree.others, k.word < o.offset
      simp only [List.flatMap_append, List.flatMap_cons, List.flatMap_nil, List.append_nil,
        List.mem_append]
      rintro o (ho | ho | ho)
      · exact hhead.others o ho
      · exact hothers o ho
      · have hstart := htoken.sound.le_others o ho
        have hle := htoken.behind
        omega
    · rcases hhead.guilty with heq | hg
      · have hne : es ≠ [] := by
          rintro rfl
          have hsame : m'.offset = s.offset := hes.stop
          omega
        refine (hguilty (hoffset.trans heq) hne).mono fun x hx => hsub ?_
        show x ∈ (t.children ++ (es ++ [token])).flatMap Tree.outline
        rw [List.flatMap_append, List.flatMap_append]
        exact List.mem_append_right _ (List.mem_append_left _ hx)
      · exact hg.mono fun x hx => hsub (hout hx)
    · have hle := k.front_le
      omega

theorem gaveUp {token : Tree} (h : Way (k.law found) ⟨Automaton.initial, 0⟩ ts n s)
    (hfront : k.front ≤ s.offset) (htoken : token.IsToken k.src s.offset) :
    Tree.IsFaulty k.src.length (.node .error (ts ++ [token]) token.stop) := by
  have hword := k.word_lt
  have hbehind := k.behind_lt
  cases ts with
  | nil =>
    have hzero : 0 = s.offset := h.stop
    omega
  | cons t ts =>
    obtain ⟨q, hkeeps⟩ := h.head_keeps
    obtain ⟨-, hitems, -⟩ := hkeeps.items k.pos
    have hcounted : ∀ c ∈ t :: ts ++ [token], c.Counted := by
      intro c hc
      rcases List.mem_append.mp hc with hc | hc
      · exact (h.sound c hc).counted
      · exact List.mem_singleton.mp hc ▸ htoken.sound.counted
    have hout : t.outline ⊆ _ := Tree.outline_subset
      (t := .node .error (t :: ts ++ [token]) token.stop) List.mem_cons_self
    exact Tree.isFaulty_of_zero (Tree.counted_node hcounted) (hitems.hasClause.mono hout)
      (Tree.fault_of_error rfl) hitems.start

theorem keeps_leftAgain {q q' : State} {a : Nat} (us : List Tree) (here : Mark)
    (h : k.Keeps ⟨q, a⟩ t) (hlabel : t.label = .error) (hne : t.children ≠ []) :
    k.Keeps ⟨q', a⟩ { Tree.node .error (t.children ++ us) here with extra := true } := by
  obtain ⟨c, cs, hchildren⟩ := List.exists_cons_of_ne_nil hne
  have hfirst : ∀ {P : Tree → Prop}, (∃ c cs, t.children = c :: cs ∧ P c) → P c := by
    rintro P ⟨c', cs', heq, hc⟩
    rw [hchildren] at heq
    exact (List.cons_eq_cons.mp heq).1 ▸ hc
  rw [hchildren]
  refine keeps_left (fun ha => ?_) (fun ha => ?_) (.inl rfl) (show _ = c :: (cs ++ us) from rfl) rfl
  · exact ⟨(h.items ha).1, hfirst ((h.items ha).2.1.first_of_error hlabel)⟩
  · exact hfirst ((h.word ha).1.first_of_error hlabel)

instance (k : Cut) (found : Bool) : (k.law found).Stable where
  token hb ht := keeps_of_front hb fun hlabel => absurd hlabel (rightParen_not_token hb ht)
  passed hb _ hcomment := keeps_of_front hb fun hlabel => absurd (hlabel.symm.trans hcomment) (by decide)
  putIn _ _ hb _ := keeps_of_front hb fun _ => rfl
  ranked rank h := h.ranked rank
  moved h hextra := h.moved hextra
  leftOut _ _ h _ :=
    keeps_left (fun ha => ⟨(h.items ha).1, (h.items ha).2.1⟩) (fun ha => (h.word ha).1) (.inl rfl) rfl
      rfl
  leftAgain ts here h hlabel hne _ := keeps_leftAgain ts here h hlabel hne
  skipped _ _ h _ :=
    keeps_left (fun ha => ⟨(h.items ha).1, (h.items ha).2.1⟩) (fun ha => (h.word ha).1)
      (.inr ⟨rfl, rfl⟩) rfl rfl
  formed here h hr hfirst hlast _ hempty := keeps_formed here h hr hfirst hlast hempty
  accepted hus hrung hlabel _ hes hfront htoken _ :=
    ⟨fun _ => rfl, by rintro _ ⟨⟩; exact accepted hus hrung hlabel hes hfront htoken⟩
  gaveUp h hfront htoken _ := ⟨fun _ => rfl, by rintro _ ⟨⟩; exact gaveUp h hfront htoken⟩

end Cut

end ImportGroups.Source
