import ImportGroups.Proofs.Header.Specs
import Mathlib.Data.List.TakeWhile

/-!
How a block of import specs is read.

The first spec of a block lies on the column by itself, and all others together as one tree above
it. So there are two shapes of a column on which some specs lie, and a line break with another spec
leads from either of them to the second.
-/

namespace ImportGroups.Source

open Text (Bytes)
open Header (Blanks LineBreak Spec Block leftParenByte rightParenByte)

variable {start : Mark} {k k' : Column} {n : Nat} {symbols : List Symbol}

/-- A line break as it is read: blanks, line feeds, and blanks that belong to the next token. -/
structure Broken (w pre lines post : Bytes) : Prop where
  whole : w = pre ++ (lines ++ post)
  before : ∀ b ∈ pre, isBlankByte b = true ∧ b ≠ lineFeed
  feeds : ∀ b ∈ lines, b = lineFeed
  nonempty : lines ≠ []
  behind : ∀ b ∈ post, isBlankByte b = true
  ends : ∀ b ∈ post.head?, b ≠ lineFeed

theorem exists_broken {w : Blanks} (h : lineFeed ∈ w.bytes) :
    ∃ pre lines post, Broken w.bytes pre lines post := by
  let pre := w.bytes.takeWhile (· != lineFeed)
  let rest := w.bytes.dropWhile (· != lineFeed)
  have hsplit : pre ++ rest = w.bytes := List.takeWhile_append_dropWhile
  have hrest : rest = rest.takeWhile (· == lineFeed) ++ rest.dropWhile (· == lineFeed) :=
    List.takeWhile_append_dropWhile.symm
  refine ⟨pre, rest.takeWhile (· == lineFeed), rest.dropWhile (· == lineFeed), ?_, ?_, ?_, ?_, ?_, ?_⟩
  · rw [← hrest, hsplit]
  · intro b hb
    exact ⟨w.blank b ((List.takeWhile_prefix _).subset hb), by simpa using List.mem_takeWhile_imp hb⟩
  · intro b hb
    simpa using List.mem_takeWhile_imp hb
  · have hne : rest ≠ [] := by
      intro hnil
      have := List.dropWhile_eq_nil_iff.mp hnil lineFeed h
      simp at this
    have hhead : (rest.head hne != lineFeed) = false := by
      simpa using List.head_dropWhile_not (· != lineFeed) hne
    cases hr : rest with
    | nil => exact absurd hr hne
    | cons b bs =>
      simp only [hr, List.head_cons, bne_eq_false_iff_eq] at hhead
      simp [hhead]
  · intro b hb
    have hmem : b ∈ rest := (List.dropWhile_suffix _).subset hb
    exact w.blank b ((List.dropWhile_suffix _).subset hmem)
  · intro b hb
    have := List.head?_dropWhile_not (· == lineFeed) rest
    rw [Option.mem_def.mp hb] at this
    simpa using this

/-- Before a line feed the column becomes `k'`. -/
structure Closes (start : Mark) (n : Nat) (k k' : Column) : Prop where
  mode : Automaton.mode k.state ∈ [2, 4, 8]
  forms : Forms start .newline n k k'

theorem Pending.closes (h : Pending start symbols n k k') (hmem : .newline ∈ symbols) :
    Closes start n k k' := by
  have hmode := h.mode
  refine ⟨?_, h.forms _ hmem⟩
  simp only [List.mem_cons, List.not_mem_nil, or_false] at hmode ⊢
  omega

theorem Closes.set (h : Closes start n k k') :
    (modeSymbols (Automaton.mode k.state)).contains .newline = true ∧
      ∀ bs, tightSymbolAt? (modeSymbols (Automaton.mode k.state)) bs = none := by
  have hall : ∀ mode ∈ [2, 4, 8], (modeSymbols mode).contains .newline = true := by decide
  have hmode := h.mode
  refine ⟨hall _ hmode, tightSymbolAt?_eq_none ?_⟩
  simp only [List.mem_cons, List.not_mem_nil, or_false] at hmode ⊢
  omega

theorem Closes.reads_newline {w pre lines post more : Bytes} {target : State}
    (h : Closes start n k k') (hn : n ≤ 20)
    (hbroken : Broken w pre lines post) (hrest : (k.mark start).rest = w ++ more)
    (hpos : 0 < (k.mark start).offset) (hmore : ∀ b ∈ more.head?, b ≠ lineFeed)
    (ha : Automaton.actions k'.state .newline = [.shift target]) :
    Reads start 1 k ((target, (k.mark start).token .newline pre lines) :: k') ∧
      ((k.mark start).token .newline pre lines).stop.rest = post ++ more ∧
      ((k.mark start).token .newline pre lines).stop.past post = (k.mark start).past w := by
  have hbytes : (k.mark start).rest = pre ++ (lines ++ (post ++ more)) := by
    rw [hrest, hbroken.whole]
    simp
  have hnext : ∀ b ∈ (post ++ more).head?, b ≠ lineFeed := by
    cases hp : post with
    | nil => simpa using hmore
    | cons c post =>
      have := hbroken.ends
      simpa [hp] using this
  have hread := readToken_newline hbytes (Mark.skipByteOrderMark_of_pos hpos) (h.set.2 _) h.set.1
    hbroken.before hbroken.nonempty hbroken.feeds hnext
  refine ⟨.one (.of_forms ⟨_, hread⟩ rfl h.forms ha) hn
    (Mark.offset_lt_token hbytes hbroken.nonempty), Mark.rest_token hbytes, ?_⟩
  rw [Mark.token_stop, Mark.past_past, Mark.past_past, hbroken.whole]

def moreEvents (m : Mark) : List (LineBreak × Spec) → List Event
  | [] => []
  | (w, s) :: more =>
    specEvent (m.past w.bytes) s :: moreEvents ((m.past w.bytes).past s.bytes) more

inductive Listed (base : Column) (a b : Mark) (es : List Event) : Column → Prop where
  | one {t : Tree} : t.Covers a b es → Listed base a b es ((29, t) :: base)
  | many {t u : Tree} {c d : Mark} {fs gs : List Event} :
      t.Covers a c fs → u.Covers d b gs → es = fs ++ gs →
      Listed base a b es ((51, u) :: (29, t) :: base)

theorem Listed.top {base : Column} {a b : Mark} {es : List Event} (h : Listed base a b es k) :
    ∃ top, k = top ++ base ∧ top.Plain ∧ Tree.CoverAll top.trees a b es ∧
      (k.state, top.length) ∈ [(29, 1), (51, 2)] := by
  cases h with
  | @one t ht => exact ⟨[(29, t)], rfl, by simp [Column.Plain, ht.extra], .one ht, by simp⟩
  | @many t u c d fs gs ht hu hes =>
    subst hes
    exact ⟨[(51, u), (29, t)], rfl, by simp [Column.Plain, ht.extra, hu.extra],
      .cons ht (.one hu), by simp⟩

theorem forms_more (start : Mark) (k : Column) {s s' : State} {t u : Tree} {a b c d : Mark} {es fs : List Event}
    (hs : s ∈ [65, 67]) (ht : t.Covers a b es) (hu : u.Covers c d fs) :
    ∃ v : Tree, v.Covers a d (es ++ fs) ∧ ∀ symbol ∈ blockEnds,
      Forms start symbol 1 ((s, u) :: (s', t) :: k)
        ((Automaton.afterPhrase k.state .moreImportSpecs, v) :: k) := by
  have hentry : ∀ s ∈ [65, 67],
      (s, blockEnds, ⟨.moreImportSpecs, 2, 0⟩) ∈ Automaton.ruleEntries := by decide
  refine ⟨.formed .moreImportSpecs [t, u] (k.mark start),
    Tree.covers_formed_plain (.cons ht (.one hu)) (by decide), fun symbol hsymbol => ?_⟩
  exact .one [(s, u), (s', t)] (Automaton.rule_entry (hentry s hs) hsymbol)
    (by simp [Column.Plain, ht.extra, hu.extra]) (by simp)

theorem afterPhrase_more : Automaton.afterPhrase 29 .moreImportSpecs = 51 ∧
    Automaton.afterPhrase 51 .moreImportSpecs = 67 :=
  ⟨Automaton.phrase_entry (by decide), Automaton.phrase_entry (by decide)⟩

theorem Pending.reads_spec {slot : Slot} {w : LineBreak} {s : Spec} {more : Bytes}
    (h : Pending start symbols n k k') (hmem : .newline ∈ symbols) (hn : n ≤ 20)
    (ha : Automaton.actions k'.state .newline = [.shift slot.state])
    (hpos : 0 < (k.mark start).offset)
    (hrest : (k.mark start).rest = w.bytes ++ (s.bytes ++ more)) :
    ∃ m k₁ b feed tree, Reads start m k k₁ ∧
      Pending start slot.ends 2 k₁ ((slot.done, tree) :: (slot.state, feed) :: k') ∧
      Tree.Covers feed b feed.stop [] ∧
      tree.Covers ((k.mark start).past w.bytes) (((k.mark start).past w.bytes).past s.bytes)
        [specEvent ((k.mark start).past w.bytes) s] := by
  have hhead : ∀ b ∈ (s.bytes ++ more).head?, b ≠ lineFeed := by
    rintro b hb rfl
    exact absurd (s.head?_bytes lineFeed hb) (by decide)
  obtain ⟨pre, lines, post, hbroken⟩ := exists_broken w.breaks
  obtain ⟨hfirst, hin, hat⟩ := (h.closes hmem).reads_newline hn hbroken hrest hpos hhead ha
  let feed := (k.mark start).token .newline pre lines
  have hin : (Column.mark start ((slot.state, feed) :: k')).rest = post ++ (s.bytes ++ more) := hin
  obtain ⟨m, k₁, tree, hreads, hspec, htree⟩ := Source.reads_spec rfl hin
    (Nat.zero_lt_of_lt hfirst.le_offset) hbroken.behind
  rw [Column.mark_cons, show feed.stop.past post = _ from hat] at htree
  exact ⟨_, k₁, _, feed, tree, hfirst.trans hreads, hspec, Tree.covers_token _ _ _ _, htree⟩

theorem Listed.reads_spec {base : Column} {a : Mark} {es : List Event} {w : LineBreak} {s : Spec}
    {more : Bytes} (hlisted : Listed base a (k.mark start) es k')
    (hpending : Pending start blockEnds n k k') (hn : n ≤ 4) (hpos : 0 < (k.mark start).offset)
    (hrest : (k.mark start).rest = w.bytes ++ (s.bytes ++ more)) :
    ∃ m n₁ k₁ k₁', Reads start m k k₁ ∧ Pending start blockEnds n₁ k₁ k₁' ∧ n₁ ≤ 4 ∧
      k₁.mark start = ((k.mark start).past w.bytes).past s.bytes ∧
      Listed base a (k₁.mark start) (es ++ [specEvent ((k.mark start).past w.bytes) s]) k₁' := by
  have hline : .newline ∈ blockEnds := by decide
  have hshift : Automaton.actions 29 .newline = [.shift Slot.second.state] ∧
      Automaton.actions 51 .newline = [.shift Slot.later.state] :=
    ⟨Automaton.shift_entry (by decide), Automaton.shift_entry (by decide)⟩
  cases hlisted with
  | @one t ht =>
    obtain ⟨m, k₁, b, feed, tree, hreads, hspec, hfeed, htree⟩ :=
      hpending.reads_spec hline (by omega) hshift.1 hpos hrest
    obtain ⟨v, hv, hforms⟩ := forms_more start ((29, t) :: base)
      (by decide : Slot.second.done ∈ [65, 67]) hfeed htree
    have hmark : k₁.mark start = _ := (hspec.mark hline).symm.trans htree.stop
    rw [Column.state_cons, afterPhrase_more.1] at hforms
    refine ⟨m, 2 + 1, k₁, _, hreads, ⟨hspec.mode, fun t ht => (hspec.forms t ht).trans (hforms t ht)⟩,
      by decide, hmark, ?_⟩
    rw [hmark]
    exact .many ht hv rfl
  | @many t u c d fs gs ht hu hes =>
    obtain ⟨m, k₁, b, feed, tree, hreads, hspec, hfeed, htree⟩ :=
      hpending.reads_spec hline (by omega) hshift.2 hpos hrest
    obtain ⟨v, hv, hforms⟩ := forms_more start ((51, u) :: (29, t) :: base)
      (by decide : Slot.later.done ∈ [65, 67]) hfeed htree
    rw [Column.state_cons, afterPhrase_more.2] at hforms
    obtain ⟨v', hv', hforms'⟩ := forms_more start ((29, t) :: base)
      (by decide : 67 ∈ [65, 67]) hu hv
    have hmark : k₁.mark start = _ := (hspec.mark hline).symm.trans htree.stop
    rw [Column.state_cons, afterPhrase_more.1] at hforms'
    refine ⟨m, 2 + 1 + 1, k₁, _, hreads, ⟨hspec.mode, fun t ht =>
      ((hspec.forms t ht).trans (hforms t ht)).trans (hforms' t ht)⟩, by decide, hmark, ?_⟩
    rw [hmark]
    exact .many ht hv' (by simp [hes])

theorem Listed.reads_more {base : Column} {a : Mark} {es : List Event}
    {specs : List (LineBreak × Spec)} {more : Bytes} (hlisted : Listed base a (k.mark start) es k')
    (hpending : Pending start blockEnds n k k') (hn : n ≤ 4) (hpos : 0 < (k.mark start).offset)
    (hrest : (k.mark start).rest = Block.moreBytes specs ++ more) :
    ∃ m n₁ k₁ k₁', Reads start m k k₁ ∧ Pending start blockEnds n₁ k₁ k₁' ∧ n₁ ≤ 4 ∧
      k₁.mark start = (k.mark start).past (Block.moreBytes specs) ∧
      Listed base a (k₁.mark start) (es ++ moreEvents (k.mark start) specs) k₁' := by
  induction specs generalizing k k' n es with
  | nil => exact ⟨0, n, k, k', .refl k, hpending, hn, rfl, by simpa [moreEvents] using hlisted⟩
  | cons x specs ih =>
    obtain ⟨w, s⟩ := x
    have hbytes : Block.moreBytes ((w, s) :: specs) =
        w.bytes ++ (s.bytes ++ Block.moreBytes specs) := by
      simp [Block.moreBytes]
    have hrest₁ : (k.mark start).rest = w.bytes ++ (s.bytes ++ (Block.moreBytes specs ++ more)) := by
      simpa [hbytes] using hrest
    obtain ⟨m, n₁, k₁, k₁', hreads, hpending₁, hn₁, hmark, hlisted₁⟩ :=
      hlisted.reads_spec hpending hn hpos hrest₁
    have hle := hreads.le_offset
    obtain ⟨m', n₂, k₂, k₂', hreads', hpending₂, hn₂, hmark₂, hlisted₂⟩ :=
      ih hlisted₁ hpending₁ hn₁ (by omega) (by rw [hmark, Mark.rest_past (Mark.rest_past hrest₁)])
    refine ⟨_, n₂, k₂, k₂', hreads.trans hreads', hpending₂, hn₂, ?_, ?_⟩
    · rw [hmark₂, hmark, hbytes, Mark.past_past, Mark.past_past]
    · rw [hmark] at hlisted₂
      simpa [moreEvents] using hlisted₂

theorem reads_rightParen {w more : Bytes} {target : State}
    (hmode : Automaton.mode k.state ∈ [2, 3, 4])
    (hw : ∀ b ∈ w, blankIn (Automaton.mode k.state) b = true)
    (hforms : Forms start .rightParen n k k') (hn : n ≤ 20)
    (ha : Automaton.actions k'.state .rightParen = [.shift target])
    (hrest : (k.mark start).rest = w ++ ([rightParenByte] ++ more))
    (hpos : 0 < (k.mark start).offset) :
    Reads start 1 k ((target, (k.mark start).token .rightParen w [rightParenByte]) :: k') := by
  refine .one (.of_forms ⟨_, readToken_sign hrest (Mark.skipByteOrderMark_of_pos hpos)
    (tightSymbolAt?_eq_none ?_ _) hw (by decide) ?_ (by decide)⟩ rfl hforms ha) hn
    (Mark.offset_lt_token hrest (by simp))
  · simp only [List.mem_cons, List.not_mem_nil, or_false] at hmode ⊢
    omega
  · simp only [List.mem_cons, List.not_mem_nil, or_false] at hmode
    rcases hmode with hmode | hmode | hmode <;> rw [hmode] <;> cases more <;> rfl

/-- The end of a block behind white space, with a line feed in it or without. -/
theorem Pending.reads_close {s₁ s₂ s₃ : State} {w : Blanks} {more : Bytes}
    (h : Pending start blockEnds n k k') (hn : n ≤ 20)
    (h₁ : Automaton.actions k'.state .rightParen = [.shift s₁])
    (h₂ : Automaton.actions k'.state .newline = [.shift s₂]) (hmode : Automaton.mode s₂ = 3)
    (h₃ : Automaton.actions s₂ .rightParen = [.shift s₃])
    (hrest : (k.mark start).rest = w.bytes ++ ([rightParenByte] ++ more))
    (hpos : 0 < (k.mark start).offset) :
    ∃ m top a, Reads start m k (top ++ k') ∧ top.Plain ∧
      (Column.state (top ++ k'), top.length) ∈ [(s₁, 1), (s₃, 2)] ∧
      Tree.CoverAll top.trees a (((k.mark start).past w.bytes).past [rightParenByte]) [] := by
  by_cases hfeed : lineFeed ∈ w.bytes
  · obtain ⟨pre, lines, post, hbroken⟩ := exists_broken hfeed
    obtain ⟨hfirst, hin, hat⟩ :=
      (h.closes (by decide)).reads_newline hn hbroken hrest hpos (by simp; decide) h₂
    let feed := (k.mark start).token .newline pre lines
    have hin : (Column.mark start ((s₂, feed) :: k')).rest = post ++ ([rightParenByte] ++ more) := hin
    have hblank : ∀ b ∈ post, blankIn (Automaton.mode (Column.state ((s₂, feed) :: k'))) b = true := by
      rw [Column.state_cons, hmode]
      exact fun b hb => (blankIn_eq (by decide) b).trans (hbroken.behind b hb)
    have hparen := reads_rightParen (by simp [hmode]) hblank (.refl _) (by decide) h₃ hin
      (Nat.zero_lt_of_lt hfirst.le_offset)
    refine ⟨_, [(s₃, _), (s₂, feed)], (k.mark start).past pre, hfirst.trans hparen, ?_, by simp, ?_⟩
    · simp [Column.Plain, feed]
    · rw [← hat]
      exact .cons (Tree.covers_token _ _ _ _) (.one (Tree.covers_token _ _ _ _))
  · have hblank : ∀ b ∈ w.bytes, blankIn (Automaton.mode k.state) b = true := by
      intro b hb
      have hne : b ≠ lineFeed := by
        rintro rfl
        exact hfeed hb
      simp [blankIn, w.blank b hb, hne]
    have hmode' : Automaton.mode k.state ∈ [2, 3, 4] := by
      have := h.mode
      simp only [List.mem_cons, List.not_mem_nil, or_false] at this ⊢
      omega
    have hreads := reads_rightParen hmode' hblank (h.forms _ (by decide)) hn h₁ hrest hpos
    refine ⟨1, [(s₁, _)], _, hreads, ?_, by simp, .one (Tree.covers_token _ _ _ _)⟩
    simp [Column.Plain]

/-- The states after a block, with the number of its parts. -/
def blockShapes : List (State × Nat) := [(27, 2), (50, 3), (64, 4), (1130, 5)]

theorem pending_block (start : Mark) {top : Column} {a b : Mark} {es : List Event} (hk : k.state = 3)
    (hplain : top.Plain) (htop : (Column.state (top ++ k), top.length) ∈ blockShapes)
    (hcovers : Tree.CoverAll top.trees a b es) :
    ∃ tree : Tree, tree.Covers a b es ∧ Pending start terminators 1 (top ++ k) ((15, tree) :: k) := by
  have hall : ∀ x ∈ blockShapes, (x.1, 2) ∈ Automaton.modeEntries ∧
      (x.1, terminators, ⟨.importSpecList, x.2, 0⟩) ∈ Automaton.ruleEntries := by decide
  have hafter : Automaton.afterPhrase 3 .importSpecList = 15 := Automaton.phrase_entry (by decide)
  obtain ⟨hmode, hrule⟩ := hall _ htop
  refine ⟨.formed .importSpecList top.trees (k.mark start),
    Tree.covers_formed_plain hcovers (by decide), by rw [Automaton.mode_entry hmode]; decide, ?_⟩
  intro t ht
  rw [← hafter, ← hk]
  exact .one top (Automaton.rule_entry hrule ht) hplain hcovers.top_ne_nil

theorem Listed.reads_close {k₀ : Column} {paren : Tree} {a c d : Mark} {es : List Event}
    {w : Blanks} {more : Bytes} (hlisted : Listed ((10, paren) :: k₀) a (k.mark start) es k')
    (hk₀ : k₀.state = 3) (hparen : paren.Covers c d [])
    (hpending : Pending start blockEnds n k k') (hn : n ≤ 4) (hpos : 0 < (k.mark start).offset)
    (hrest : (k.mark start).rest = w.bytes ++ ([rightParenByte] ++ more)) :
    ∃ m k₁ tree, Reads start m k k₁ ∧ Pending start terminators 1 k₁ ((15, tree) :: k₀) ∧
      tree.Covers c (((k.mark start).past w.bytes).past [rightParenByte]) es := by
  obtain ⟨specs, rfl, hspecs, hcovers, hstate⟩ := hlisted.top
  -- what the two shapes need, and the state and the number of parts that a block then has
  have hclose : ∃ s₁ s₂ s₃, Automaton.actions (Column.state (specs ++ (10, paren) :: k₀)) .rightParen =
        [.shift s₁] ∧
      Automaton.actions (Column.state (specs ++ (10, paren) :: k₀)) .newline = [.shift s₂] ∧
      Automaton.mode s₂ = 3 ∧ Automaton.actions s₂ .rightParen = [.shift s₃] ∧
      ∀ x ∈ [(s₁, 1), (s₃, 2)], (x.1, x.2 + specs.length + 1) ∈ blockShapes := by
    simp only [List.mem_cons, Prod.mk.injEq, List.not_mem_nil, or_false] at hstate
    rcases hstate with ⟨hs, hl⟩ | ⟨hs, hl⟩
    · rw [hs, hl]
      exact ⟨50, 49, 64, Automaton.shift_entry (by decide), Automaton.shift_entry (by decide),
        Automaton.mode_entry (by decide), Automaton.shift_entry (by decide), by decide⟩
    · rw [hs, hl]
      exact ⟨64, 66, 1130, Automaton.shift_entry (by decide), Automaton.shift_entry (by decide),
        Automaton.mode_entry (by decide), Automaton.shift_entry (by decide), by decide⟩
  obtain ⟨s₁, s₂, s₃, h₁, h₂, h₃, h₄, hshape⟩ := hclose
  obtain ⟨m, top, b, hreads, hplain, htop, hend⟩ :=
    hpending.reads_close (by omega) h₁ h₂ h₃ h₄ hrest hpos
  have happend : top ++ (specs ++ (10, paren) :: k₀) = (top ++ specs ++ [(10, paren)]) ++ k₀ := by
    simp
  rw [happend] at hreads htop
  have hall : Tree.CoverAll (Column.trees (top ++ specs ++ [(10, paren)])) c
      (((k.mark start).past w.bytes).past [rightParenByte]) es := by
    have := (Tree.CoverAll.one hparen).append (hcovers.append hend)
    simpa using this
  have hplain' : Column.Plain (top ++ specs ++ [(10, paren)]) := by
    intro x hx
    simp only [List.mem_append, List.mem_singleton] at hx
    rcases hx with (hx | hx) | rfl
    · exact hplain x hx
    · exact hspecs x hx
    · exact hparen.extra
  obtain ⟨tree, htree, hblock⟩ := pending_block start hk₀ hplain'
    (by simpa [Nat.add_assoc] using hshape _ htop) hall
  exact ⟨m, _, tree, hreads, hblock, htree⟩

/-- An opening parenthesis behind white space. -/
theorem reads_leftParen {w : Blanks} {more : Bytes} (hk : k.state = 3)
    (hrest : (k.mark start).rest = w.bytes ++ ([leftParenByte] ++ more))
    (hpos : 0 < (k.mark start).offset) :
    Reads start 1 k ((10, (k.mark start).token .leftParen w.bytes [leftParenByte]) :: k) := by
  have hmode : Automaton.mode 3 = 3 := Automaton.mode_entry (by decide)
  have hblank : ∀ b ∈ w.bytes, blankIn (Automaton.mode k.state) b = true := by
    rw [hk, hmode]
    exact fun b hb => (blankIn_eq (by decide) b).trans (w.blank b hb)
  have hsymbol : symbolAt? (modeSymbols (Automaton.mode k.state)) (leftParenByte :: more) =
      some (.leftParen, 1) := by
    rw [hk, hmode]
    cases more <;> rfl
  refine .one (.of_forms ⟨_, readToken_sign hrest (Mark.skipByteOrderMark_of_pos hpos)
    (tightSymbolAt?_eq_none ?_ _) hblank (by decide) hsymbol (by decide)⟩ rfl (.refl k) ?_) (by decide)
    (Mark.offset_lt_token hrest (by simp))
  · rw [hk, hmode]
    decide
  · rw [hk]
    exact Automaton.shift_entry (by decide)

def blockEvents (m : Mark) (b : Block) : List Event :=
  let first := (m.past [leftParenByte]).past b.lead.bytes
  specEvent first b.first :: moreEvents (first.past b.first.bytes) b.more

theorem reads_block {gap : Blanks} {b : Block} {more : Bytes} (hk : k.state = 3)
    (hrest : (k.mark start).rest = gap.bytes ++ (b.bytes ++ more))
    (hpos : 0 < (k.mark start).offset) :
    ∃ m k₁ tree, Reads start m k k₁ ∧ Pending start terminators 1 k₁ ((15, tree) :: k) ∧
      tree.Covers ((k.mark start).past gap.bytes) (((k.mark start).past gap.bytes).past b.bytes)
        (blockEvents ((k.mark start).past gap.bytes) b) := by
  have hopen : (k.mark start).rest = gap.bytes ++ ([leftParenByte] ++ (b.lead.bytes ++
      (b.first.bytes ++ (Block.moreBytes b.more ++ (b.tail.bytes ++ ([rightParenByte] ++ more)))))) := by
    simpa [Block.bytes] using hrest
  have hparen := reads_leftParen hk hopen hpos
  let paren := (k.mark start).token .leftParen gap.bytes [leftParenByte]
  have hpos₁ : 0 < paren.stop.offset := Nat.zero_lt_of_lt hparen.le_offset
  have hrest₁ : (Column.mark start ((10, paren) :: k)).rest = _ := Mark.rest_token hopen
  have hslot : Column.state ((10, paren) :: k) = Slot.first.state := rfl
  obtain ⟨m, k₁, tree, hreads, hpending, htree⟩ := reads_spec hslot hrest₁ hpos₁ b.lead.blank
  have hmark : k₁.mark start = _ := (hpending.mark (by decide)).symm.trans htree.stop
  have hle := hreads.le_offset
  have hlisted : Listed ((10, paren) :: k) _ (k₁.mark start) _ ((29, tree) :: (10, paren) :: k) :=
    .one (by rw [hmark]; exact htree)
  have hrest₂ : (k₁.mark start).rest = Block.moreBytes b.more ++
      (b.tail.bytes ++ ([rightParenByte] ++ more)) := by
    rw [hmark]
    exact Mark.rest_past (Mark.rest_past hrest₁)
  obtain ⟨m₂, n₂, k₂, k₂', hreads₂, hpending₂, hn₂, hmark₂, hlisted₂⟩ :=
    hlisted.reads_more hpending (by decide) (by simp only [Column.mark_cons] at hle; omega) hrest₂
  have hle₂ := hreads₂.le_offset
  obtain ⟨m₃, k₃, block, hreads₃, hpending₃, hblock⟩ :=
    hlisted₂.reads_close hk (Tree.covers_token _ _ _ _) hpending₂ hn₂
      (by simp only [Column.mark_cons] at hle; omega) (by rw [hmark₂, Mark.rest_past hrest₂])
  refine ⟨_, k₃, block, hparen.trans (hreads.trans (hreads₂.trans hreads₃)), hpending₃, ?_⟩
  rw [hmark₂, hmark] at hblock
  have hstop : ((k.mark start).past gap.bytes).past b.bytes =
      (((((((k.mark start).past gap.bytes).past [leftParenByte]).past b.lead.bytes).past
        b.first.bytes).past (Block.moreBytes b.more)).past b.tail.bytes).past [rightParenByte] := by
    simp only [Mark.past_past, Block.bytes]
    simp
  rw [hstop]
  exact hblock

theorem reads_emptyBlock {gap inner : Blanks} {more : Bytes} (hk : k.state = 3)
    (hrest : (k.mark start).rest = gap.bytes ++ (leftParenByte :: (inner.bytes ++ [rightParenByte]) ++ more))
    (hpos : 0 < (k.mark start).offset) :
    ∃ m k₁ tree, Reads start m k k₁ ∧ Pending start terminators 1 k₁ ((15, tree) :: k) ∧
      tree.Covers ((k.mark start).past gap.bytes)
        (((k.mark start).past gap.bytes).past (leftParenByte :: (inner.bytes ++ [rightParenByte]))) [] := by
  have hopen : (k.mark start).rest = gap.bytes ++ ([leftParenByte] ++ (inner.bytes ++
      ([rightParenByte] ++ more))) := by
    simpa using hrest
  have hparen := reads_leftParen hk hopen hpos
  let paren := (k.mark start).token .leftParen gap.bytes [leftParenByte]
  have hmode : Automaton.mode 10 = 3 := Automaton.mode_entry (by decide)
  have hrest₁ : (Column.mark start ((10, paren) :: k)).rest = _ := Mark.rest_token hopen
  have hblank : ∀ b ∈ inner.bytes,
      blankIn (Automaton.mode (Column.state ((10, paren) :: k))) b = true := by
    rw [Column.state_cons, hmode]
    exact fun b hb => (blankIn_eq (by decide) b).trans (inner.blank b hb)
  have hshift : Automaton.actions 10 .rightParen = [.shift 27] := Automaton.shift_entry (by decide)
  have hclose := reads_rightParen (by simp [hmode]) hblank (.refl _) (by decide) hshift hrest₁
    (Nat.zero_lt_of_lt hparen.le_offset)
  let closing := paren.stop.token .rightParen inner.bytes [rightParenByte]
  have hcovers : Tree.CoverAll (Column.trees [(27, closing), (10, paren)])
      ((k.mark start).past gap.bytes) closing.stop [] :=
    .cons (Tree.covers_token _ _ _ _) (.one (Tree.covers_token _ _ _ _))
  have hplain : Column.Plain [(27, closing), (10, paren)] := by simp [Column.Plain, closing, paren]
  obtain ⟨tree, htree, hpending⟩ := pending_block start hk hplain (by simp [blockShapes]) hcovers
  refine ⟨_, _, tree, hparen.trans hclose, hpending, ?_⟩
  have hstop : closing.stop = ((k.mark start).past gap.bytes).past
      (leftParenByte :: (inner.bytes ++ [rightParenByte])) := by
    simp [closing, paren, Mark.past_past]
  rw [← hstop]
  exact htree

end ImportGroups.Source
