import ImportGroups.Proofs.Header.Layout
import ImportGroups.Proofs.Reading.Phrases
import ImportGroups.Proofs.Reading.Tables

/-!
How an import spec is read.

A spec stands alone behind `import`, or in a block. The automaton has one set of states for the first
case and another for the second, and goes through both in the same way.
-/

namespace ImportGroups.Source

open Text (Bytes)
open Header (Style ImportPath Spec Alias Name)

variable {start : Mark} {k : Column}

structure Tree.IsLiteral (t : Tree) (a b : Mark) : Prop where
  isString : t.isString = true
  isVisible : t.isVisible = true
  covers : t.Covers a b []

/-- The column is ready for the end of something, which becomes one tree of the column `k'`. -/
structure Pending (start : Mark) (symbols : List Symbol) (n : Nat) (k k' : Column) : Prop where
  mode : Automaton.mode k.state ∈ [2, 4]
  forms : ∀ t ∈ symbols, Forms start t n k k'

theorem Pending.mark {symbols : List Symbol} {n : Nat} {k k' : Column}
    (h : Pending start symbols n k k') (hmem : .newline ∈ symbols) :
    k'.mark start = k.mark start :=
  (h.forms _ hmem).mark

def openingSymbol : Style → Symbol
  | .quoted => .quote
  | .raw => .rawQuote

theorem blankIn_eq {mode : Nat} (h : (modeSymbols mode).contains .newline = false) (b : UInt8) :
    blankIn mode b = isBlankByte b := by
  simp [blankIn, h]

section Literal

variable {n : Nat} {k' : Column} {w more : Bytes} {slot : Slot}

theorem readToken_quote {style : Style} (hmode : Automaton.mode k.state ∈ [1, 3])
    (h : (k.mark start).rest = w ++ ([style.byte] ++ more)) (hpos : 0 < (k.mark start).offset)
    (hw : ∀ b ∈ w, isBlankByte b = true) :
    readToken k.state (k.mark start) =
      ((k.mark start).token (openingSymbol style) w [style.byte], false) := by
  have hset : ∀ mode ∈ [1, 3], (modeSymbols mode).contains .newline = false := by decide
  refine readToken_sign h (Mark.skipByteOrderMark_of_pos hpos)
    (tightSymbolAt?_eq_none (by simp at hmode ⊢; omega) _)
    (fun b hb => (blankIn_eq (hset _ hmode) b).trans (hw b hb)) ?_ ?_ ?_
  · cases style <;> decide
  · simp only [List.mem_cons, List.not_mem_nil, or_false] at hmode
    rcases hmode with hmode | hmode <;> rw [hmode] <;> cases style <;> cases more <;> rfl
  · cases style <;> decide

theorem reads_quotedRest {path : ImportPath} (hk : k.state = slot.quoted)
    (h : (k.mark start).rest = path.bytes ++ ([quoteByte] ++ more))
    (hpos : 0 < (k.mark start).offset) :
    ∃ m top, Reads start m k (top ++ k) ∧ top.Plain ∧
      (Column.state (top ++ k), Phrase.string, top.length + 1) ∈ slot.endings ∧
      Tree.CoverAll top.trees (k.mark start) ((k.mark start).past (path.bytes ++ [quoteByte])) [] ∧
      top.states ∈ [[slot.closedEmpty], [slot.closed, slot.filled]] := by
  obtain ⟨hquoted, hfilled, _⟩ := slot.inside
  by_cases hempty : path.bytes = []
  · rw [hempty] at h ⊢
    let closing := (k.mark start).token .closingQuote [] [quoteByte]
    have htakes : Takes start closing 0 k ((slot.closedEmpty, closing) :: k) := by
      refine .of_forms ⟨_, readToken_closingQuote (by rw [hk, hquoted]) h hpos⟩ rfl (.refl k) ?_
      rw [hk]
      exact slot.actions_shift (by simp [Slot.shifts])
    refine ⟨1, [(slot.closedEmpty, closing)], .one htakes (by decide) ?_, ?_, ?_, ?_, .head _⟩
    · exact Mark.offset_lt_token h (by simp)
    · simp [Column.Plain, closing]
    · simp [Column.state, Slot.endings]
    · exact .one (Tree.covers_token _ _ _ _)
  · let content := (k.mark start).token .content [] path.bytes
    let closing := content.stop.token .closingQuote [] [quoteByte]
    have hcontent : Takes start content 0 k ((slot.filled, content) :: k) := by
      refine .of_forms ⟨_, readToken_content (by rw [hk, hquoted]) h hpos hempty
        (fun _ => ImportPath.isContentByte) (by simp)⟩ rfl (.refl k) ?_
      rw [hk]
      exact slot.actions_shift (by simp [Slot.shifts])
    have hrest : content.stop.rest = [] ++ ([quoteByte] ++ more) := Mark.rest_token h
    have hlt : (k.mark start).offset < content.stop.offset := Mark.offset_lt_token h hempty
    have hclosing : Takes start closing 0 ((slot.filled, content) :: k)
        ((slot.closed, closing) :: (slot.filled, content) :: k) := by
      refine .of_forms ⟨_, readToken_closingQuote hfilled hrest (Nat.zero_lt_of_lt hlt)⟩ rfl (.refl _) ?_
      exact slot.actions_shift (by simp [Slot.shifts])
    refine ⟨1 + 1, [(slot.closed, closing), (slot.filled, content)],
      (Reads.one hcontent (by decide) hlt).trans (.one hclosing (by decide) ?_), ?_, ?_, ?_,
      .tail _ (.head _)⟩
    · exact Mark.offset_lt_token hrest (by simp)
    · simp [Column.Plain, closing, content]
    · simp [Column.state, Slot.endings]
    · rw [← Mark.past_past]
      exact .cons (Tree.covers_token _ _ _ _) (.one (Tree.covers_token _ _ _ _))

theorem reads_rawRest {path : ImportPath} (hk : k.state = slot.rawQuoted)
    (h : (k.mark start).rest = path.bytes ++ ([rawQuoteByte] ++ more))
    (hpos : 0 < (k.mark start).offset) :
    ∃ m top, Reads start m k (top ++ k) ∧ top.Plain ∧
      (Column.state (top ++ k), Phrase.rawString, top.length + 1) ∈ slot.endings ∧
      Tree.CoverAll top.trees (k.mark start)
        ((k.mark start).past (path.bytes ++ [rawQuoteByte])) [] ∧
      top.states = [slot.rawClosed, slot.rawFilled] := by
  obtain ⟨_, _, hquoted, hfilled, hadmits⟩ := slot.inside
  let content := (k.mark start).token .rawContent [] path.bytes
  let closing := content.stop.token .rawQuote [] [rawQuoteByte]
  have hcontent : Takes start content 0 k ((slot.rawFilled, content) :: k) := by
    refine .of_forms ⟨_, readToken_rawContent (by rw [hk, hquoted]) h hpos
      (fun _ => ImportPath.isRawByte) (by simp)⟩ rfl (.refl k) ?_
    rw [hk]
    exact slot.actions_shift (by simp [Slot.shifts])
  have hrest : content.stop.rest = [] ++ ([rawQuoteByte] ++ more) := Mark.rest_token h
  have hoffset : content.stop.offset = (k.mark start).offset + path.bytes.length :=
    Mark.offset_past h
  have hpos' : 0 < content.stop.offset := by omega
  have hclosing : Takes start closing 0 ((slot.rawFilled, content) :: k)
      ((slot.rawClosed, closing) :: (slot.rawFilled, content) :: k) := by
    refine .of_forms ⟨_, readToken_sign hrest (Mark.skipByteOrderMark_of_pos hpos') ?_
      (by simp) (by decide) ?_ (by decide)⟩ rfl (.refl _) ?_
    · rw [Column.state_cons, Column.mark_cons, hfilled, hrest]
      exact tightSymbolAt?_loose (by decide) (by decide)
    · rw [Column.state_cons, hfilled]
      cases more <;> rfl
    · exact slot.actions_shift (by simp [Slot.shifts])
  have hlt : content.stop.offset < closing.stop.offset := Mark.offset_lt_token hrest (by simp)
  have hreads : ∃ m, Reads start m k
      ((slot.rawClosed, closing) :: (slot.rawFilled, content) :: k) := by
    by_cases hempty : path.bytes = []
    · -- a content without text leaves the version where it is
      refine ⟨1, .head
        (.two hpos hcontent (by decide) ?_ rfl hadmits hclosing (by decide) ?_) (.refl _)⟩
      · rw [hoffset, hempty, List.length_nil, Nat.add_zero]
      · omega
    · have hpath : 0 < path.bytes.length := List.length_pos_iff.mpr hempty
      exact ⟨1 + 1, (Reads.one hcontent (by decide) (by omega)).trans
        (.one hclosing (by decide) hlt)⟩
  obtain ⟨m, hreads⟩ := hreads
  refine ⟨m, [(slot.rawClosed, closing), (slot.rawFilled, content)], hreads, ?_, ?_, ?_, rfl⟩
  · simp [Column.Plain, closing, content]
  · simp [Slot.endings]
  · rw [← Mark.past_past]
    exact .cons (Tree.covers_token _ _ _ _) (.one (Tree.covers_token _ _ _ _))

theorem pending_literal {p : Phrase} {opened : State} {quote : Tree} {top : Column} {a b c d : Mark}
    (hp : p = .string ∨ p = .rawString) (hk : k.state ∈ slot.opening) (htop : top.Plain)
    (hending : (Column.state (top ++ (opened, quote) :: k), p, top.length + 1) ∈ slot.endings)
    (hquote : quote.Covers a b []) (hcover : Tree.CoverAll top.trees c d []) :
    ∃ tree : Tree, tree.IsLiteral a d ∧
      Pending start slot.ends 1 (top ++ (opened, quote) :: k)
        ((slot.afterLiteral k.state, tree) :: k) := by
  have hplain : Column.Plain (top ++ [(opened, quote)]) := by
    intro x hx
    rcases List.mem_append.mp hx with hx | hx
    · exact htop x hx
    · rw [List.mem_singleton] at hx
      rw [hx, hquote.extra]
  have happend : top ++ (opened, quote) :: k = (top ++ [(opened, quote)]) ++ k := by simp
  have hafter : Automaton.afterPhrase k.state p = slot.afterLiteral k.state :=
    (slot.literal hk).2.2.2 p (by simpa using hp)
  have hall : Tree.CoverAll (Column.trees (top ++ [(opened, quote)])) a d [] := by
    rw [Column.trees_append]
    exact .cons hquote hcover
  refine ⟨.formed p (Column.trees (top ++ [(opened, quote)])) (k.mark start), ⟨?_, ?_, ?_⟩,
    (slot.ending hending).1, ?_⟩
  · rcases hp with rfl | rfl <;> rfl
  · rcases hp with rfl | rfl <;> rfl
  · exact Tree.covers_formed_plain hall (by rcases hp with rfl | rfl <;> decide)
  · intro t ht
    have ha := (slot.ending hending).2 t ht
    rw [happend] at ha ⊢
    rw [← hafter]
    exact .one _ (by simpa using ha) hplain (by simp)

theorem reads_literal (slot : Slot) (style : Style) (path : ImportPath)
    (hmode : Automaton.mode k.state ∈ [1, 3])
    (hforms : ∀ t ∈ [Symbol.quote, .rawQuote], Forms start t n k k') (hn : n ≤ 20)
    (hk : k'.state ∈ slot.opening)
    (h : (k.mark start).rest = w ++ (style.byte :: (path.bytes ++ [style.byte]) ++ more))
    (hpos : 0 < (k.mark start).offset) (hw : ∀ b ∈ w, isBlankByte b = true) :
    ∃ m k₁ tree, Reads start m k k₁ ∧
      Pending start slot.ends 1 k₁ ((slot.afterLiteral k'.state, tree) :: k') ∧
      tree.IsLiteral ((k.mark start).past w)
        (((k.mark start).past w).past (style.byte :: (path.bytes ++ [style.byte]))) := by
  let quote := (k.mark start).token (openingSymbol style) w [style.byte]
  have hrest : (k.mark start).rest = w ++ ([style.byte] ++ (path.bytes ++ ([style.byte] ++ more))) := by
    simpa using h
  have hinside : quote.stop.rest = path.bytes ++ ([style.byte] ++ more) := Mark.rest_token hrest
  have hlt : (k.mark start).offset < quote.stop.offset := Mark.offset_lt_token hrest (by simp)
  have hpos' : 0 < quote.stop.offset := by omega
  have hread := readToken_quote hmode hrest hpos hw
  have hstop : quote.stop.past (path.bytes ++ [style.byte]) =
      ((k.mark start).past w).past (style.byte :: (path.bytes ++ [style.byte])) := by
    rw [Mark.token_stop, Mark.past_past, List.singleton_append]
  have hquote : quote.Covers ((k.mark start).past w) quote.stop [] := Tree.covers_token _ _ _ _
  rw [← hstop]
  cases style with
  | quoted =>
    have htakes : Takes start quote n k ((slot.quoted, quote) :: k') :=
      .of_forms ⟨_, hread⟩ rfl (hforms .quote (by simp)) (slot.literal hk).2.1
    have hin : (Column.mark start ((slot.quoted, quote) :: k')).rest = _ := hinside
    obtain ⟨m, top, hreads, hplain, hending, hcover, -⟩ := reads_quotedRest rfl hin hpos'
    obtain ⟨tree, htree, hpending⟩ :=
      pending_literal (.inl rfl) hk hplain hending hquote hcover
    exact ⟨_, _, tree, (Reads.one htakes hn hlt).trans hreads, hpending, htree⟩
  | raw =>
    have htakes : Takes start quote n k ((slot.rawQuoted, quote) :: k') :=
      .of_forms ⟨_, hread⟩ rfl (hforms .rawQuote (by simp)) (slot.literal hk).2.2.1
    have hin : (Column.mark start ((slot.rawQuoted, quote) :: k')).rest = _ := hinside
    obtain ⟨m, top, hreads, hplain, hending, hcover, -⟩ := reads_rawRest rfl hin hpos'
    obtain ⟨tree, htree, hpending⟩ :=
      pending_literal (.inr rfl) hk hplain hending hquote hcover
    exact ⟨_, _, tree, (Reads.one htakes hn hlt).trans hreads, hpending, htree⟩

end Literal

/-- A name is no keyword, and only three names have a meaning of their own somewhere. -/
theorem Name.ofWord?_mem {name : Name} {t : Symbol} (h : Symbol.ofWord? name.bytes = some t) :
    t ∈ [Symbol.underscore, .makeWord, .newWord] := by
  have hall : ∀ x ∈ Symbol.wordSpellings,
      x.1 ∈ Header.takenWords ∨ x.2 ∈ [Symbol.underscore, .makeWord, .newWord] := by
    decide
  rw [Symbol.ofWord?, Option.map_eq_some_iff] at h
  obtain ⟨x, hfind, rfl⟩ := h
  have hx : x.1 = name.bytes := by simpa using List.find?_some hfind
  rcases hall x (List.mem_of_find?_eq_some hfind) with htaken | hmem
  · exact absurd (hx ▸ htaken) name.free
  · exact hmem

theorem wordSymbol_alias (slot : Slot) (name : Name) :
    wordSymbol slot.state name.bytes = .identifier ∨
      wordSymbol slot.state name.bytes = .underscore := by
  unfold wordSymbol
  cases hword : Symbol.ofWord? name.bytes with
  | none => exact .inl rfl
  | some t =>
    have hfree : ∀ t ∈ [Symbol.makeWord, .newWord], t.isReserved = false := by decide
    have ht := Name.ofWord?_mem hword
    rw [List.mem_cons] at ht
    rcases ht with rfl | ht
    · dsimp only
      split
      · exact .inr rfl
      · exact .inl rfl
    · simp [slot.outset.2.2.2 t ht, hfree t ht]

theorem head?_gap {style : Style} {gap more : Bytes} (hgap : ∀ b ∈ gap, isBlankByte b = true) :
    ∀ b ∈ (gap ++ style.byte :: more).head?, isBlankByte b = true ∨ b = style.byte := by
  intro b hb
  cases gap with
  | nil => exact .inr (by simpa using hb.symm)
  | cons c gap =>
    obtain rfl : c = b := by simpa using hb
    exact .inl (hgap c List.mem_cons_self)

theorem symbolAt?_dot {more : Bytes}
    (hmore : ∀ b ∈ more.head?, isBlankByte b = true ∨ b = quoteByte ∨ b = rawQuoteByte) :
    symbolAt? (modeSymbols 3) (Header.dotByte :: more) = some (.dot, 1) := by
  cases more with
  | nil => rfl
  | cons b more =>
    rcases hmore b rfl with hb | rfl | rfl
    · have hmem := mem_of_isBlankByte hb
      simp only [List.mem_cons, List.not_mem_nil, or_false] at hmem
      rcases hmem with rfl | rfl | rfl | rfl | rfl | rfl <;> rfl
    · rfl
    · rfl

def specEvent (m : Mark) (s : Spec) : Event :=
  .importSpec m.toSpot (m.past s.label).toSpot (m.past s.bytes).toSpot s.literal

theorem Tree.event?_spec {ts : List Tree} {literal : Tree} {here a b : Mark}
    (hts : ∀ t ∈ ts, t.Counted) (hl : literal.IsLiteral a b) :
    (formed .importSpec (ts ++ [literal]) here).event? =
      some (.importSpec (formed .importSpec (ts ++ [literal]) here).start.toSpot a.toSpot b.toSpot
        (a.rest.take (b.offset - a.offset))) := by
  have hall : ∀ t ∈ ts ++ [literal], t.Counted := by
    intro t ht
    rcases List.mem_append.mp ht with ht | ht
    · exact hts t ht
    · rw [List.mem_singleton.mp ht]
      exact hl.covers.counted
  have hchildren : (formed .importSpec (ts ++ [literal]) here).visibleChildren =
      ts.flatMap frontier ++ [literal] := by
    rw [(counted_formed hall).visibleChildren]
    show (ts ++ [literal]).flatMap frontier = _
    rw [List.flatMap_append, List.flatMap_singleton, frontier_of_visible hl.isVisible]
  have hfind : ((ts.flatMap frontier ++ [literal]).reverse.find? isString) = some literal := by
    simp [hl.isString]
  have hvisible : (formed .importSpec (ts ++ [literal]) here).isVisible = true := rfl
  have herror : (formed .importSpec (ts ++ [literal]) here).isError = false := rfl
  have hmissing : (formed .importSpec (ts ++ [literal]) here).missing = false := rfl
  have hlabel : (formed .importSpec (ts ++ [literal]) here).label = .phrase .importSpec := rfl
  simp only [event?, hvisible, herror, hmissing, hlabel, hchildren, hfind, Option.map_some,
    Tree.text, hl.covers.start, hl.covers.stop]
  rfl

/-- The top of a column is what was read of the alias of a spec that starts at `m`. -/
structure Aliased (slot : Slot) (m : Mark) (s : Spec) (top k : Column) : Prop where
  plain : top.Plain
  counted : ∀ t ∈ top.trees, t.Counted
  opening : Column.state (top ++ k) ∈ slot.opening
  ending : (slot.afterLiteral (Column.state (top ++ k)), Phrase.importSpec, top.length + 1) ∈
    slot.endings
  label : top.trees = [] → s.label = []
  start : ∀ t ∈ top.trees.head?, t.start = m
  outline : top.trees.flatMap Tree.outline = []

theorem Aliased.pending {slot : Slot} {top k₁ : Column} {s : Spec} {m : Mark} {literal : Tree}
    {more : Bytes} (h : Aliased slot m s top k) (hk : k.state = slot.state)
    (hrest : m.rest = s.bytes ++ more)
    (hpending : Pending start slot.ends 1 k₁
      ((slot.afterLiteral (Column.state (top ++ k)), literal) :: (top ++ k)))
    (hliteral : literal.IsLiteral (m.past s.label) (m.past s.bytes)) :
    ∃ tree : Tree, Pending start slot.ends 2 k₁ ((slot.done, tree) :: k) ∧
      tree.Covers m (m.past s.bytes) [specEvent m s] := by
  let full : Column := (slot.afterLiteral (Column.state (top ++ k)), literal) :: top
  have hplain : full.Plain := by
    intro x hx
    rcases List.mem_cons.mp hx with rfl | hx
    · exact hliteral.covers.extra
    · exact h.plain x hx
  have htrees : full.trees = top.trees ++ [literal] := Column.trees_cons _ _ _
  let tree := Tree.formed .importSpec full.trees (k.mark start)
  have hbegin : tree.start = m := by
    show ((full.trees).head?.map (·.start)).getD (k.mark start) = m
    rw [htrees]
    cases htop' : top.trees with
    | nil =>
      have hempty : s.label = [] := h.label htop'
      simp [hliteral.covers.start, hempty]
    | cons t ts =>
      simp [h.start t (by simp [htop'])]
  have hend : tree.stop = m.past s.bytes := by
    show ((full.trees).getLast?.map (·.stop)).getD (k.mark start) = m.past s.bytes
    rw [htrees]
    simp [hliteral.covers.stop]
  have htext : (m.past s.label).rest.take ((m.past s.bytes).offset - (m.past s.label).offset) =
      s.literal := by
    have hlit : (m.past s.label).rest = s.literal ++ more := by
      apply Mark.rest_past
      rw [hrest, Spec.bytes, List.append_assoc]
    rw [Spec.bytes, ← Mark.past_past]
    exact Mark.take_past hlit
  have hevent : tree.event? = some (specEvent m s) := by
    have hspec : (Tree.formed .importSpec (top.trees ++ [literal]) (k.mark start)).event? = _ :=
      Tree.event?_spec h.counted hliteral
    rw [← htrees, htext] at hspec
    rw [show tree.event? = _ from hspec, show (Tree.formed _ _ _).start = m from hbegin]
    rfl
  have hall : ∀ t ∈ full.trees, t.Counted := by
    intro t ht
    rw [htrees] at ht
    rcases List.mem_append.mp ht with ht | ht
    · exact h.counted t ht
    · rw [List.mem_singleton.mp ht]
      exact hliteral.covers.counted
  refine ⟨tree, ⟨hpending.mode, ?_⟩, rfl, Tree.counted_formed hall, hbegin, hend, ?_⟩
  · intro t ht
    have hafter : Automaton.afterPhrase k.state .importSpec = slot.done := by
      rw [hk]
      exact slot.outset.2.1
    rw [← hafter]
    exact (hpending.forms t ht).trans (.one full ((slot.ending h.ending).2 t ht) hplain
      (List.cons_ne_nil _ _))
  · rw [Tree.outline_formed, hevent, htrees, List.flatMap_append, h.outline, List.flatMap_singleton,
      hliteral.covers.outline]
    rfl

section Spec

variable {slot : Slot} {m : Mark} {s : Spec} {w more : Bytes}

theorem Aliased.reads {n : Nat} {top k₂ : Column} {gap : Bytes} (h : Aliased slot m s top k)
    (hk : k.state = slot.state) (hrest : m.rest = s.bytes ++ more)
    (hmode : Automaton.mode k₂.state ∈ [1, 3])
    (hforms : ∀ t ∈ [Symbol.quote, .rawQuote], Forms start t n k₂ (top ++ k)) (hn : n ≤ 20)
    (hgap : ∀ b ∈ gap, isBlankByte b = true)
    (hliteral : (k₂.mark start).rest = gap ++ (s.literal ++ more))
    (hpos : 0 < (k₂.mark start).offset) (hat : (k₂.mark start).past gap = m.past s.label) :
    ∃ n k₁ tree, Reads start n k₂ k₁ ∧ Pending start slot.ends 2 k₁ ((slot.done, tree) :: k) ∧
      tree.Covers m (m.past s.bytes) [specEvent m s] := by
  obtain ⟨n, k₁, literal, hreads, hpending, htree⟩ :=
    reads_literal slot s.style s.path hmode hforms hn h.opening hliteral hpos hgap
  rw [hat, Mark.past_past] at htree
  obtain ⟨tree, hspec, hcovers⟩ := h.pending hk hrest hpending htree
  exact ⟨n, k₁, tree, hreads, hspec, hcovers⟩

theorem aliased_one {target : State} {t : Tree} {b : Mark} (hopen : target ∈ slot.opening)
    (hending : (slot.afterLiteral target, Phrase.importSpec, 2) ∈ slot.endings)
    (hcovers : t.Covers m b []) : Aliased slot m s [(target, t)] k where
  plain := by simpa [Column.Plain] using hcovers.extra
  counted := by simpa using hcovers.counted
  opening := hopen
  ending := hending
  label := by simp
  start := by simpa using hcovers.start
  outline := by simpa using hcovers.outline

theorem slot_ready (hk : k.state = slot.state) (hpos : 0 < (k.mark start).offset)
    (hw : ∀ b ∈ w, isBlankByte b = true) :
    Automaton.mode k.state = 3 ∧ (k.mark start).skipByteOrderMark = k.mark start ∧
      tightSymbolAt? (modeSymbols (Automaton.mode k.state)) (k.mark start).rest = none ∧
      ∀ b ∈ w, blankIn (Automaton.mode k.state) b = true := by
  have hmode : Automaton.mode k.state = 3 := by
    rw [hk]
    exact slot.outset.1
  rw [hmode]
  exact ⟨rfl, Mark.skipByteOrderMark_of_pos hpos, tightSymbolAt?_eq_none (by decide) _,
    fun b hb => (blankIn_eq (by decide) b).trans (hw b hb)⟩

theorem reads_name {name : Name} (hk : k.state = slot.state)
    (h : (k.mark start).rest = w ++ (name.bytes ++ more)) (hpos : 0 < (k.mark start).offset)
    (hw : ∀ b ∈ w, isBlankByte b = true) (hmore : ∀ b ∈ more.head?, isWordEnd b = true) :
    ∃ target token, Reads start 1 k ((target, token) :: k) ∧ target ∈ slot.opening ∧
      (slot.afterLiteral target, Phrase.importSpec, 2) ∈ slot.endings ∧
      token.Covers ((k.mark start).past w) (((k.mark start).past w).past name.bytes) [] := by
  obtain ⟨hmode, hbom, htight, hblank⟩ := slot_ready hk hpos hw
  have hset : (modeSymbols (Automaton.mode k.state)).contains .identifier = true := by
    rw [hmode]
    decide
  have hread := readToken_word h hbom htight hset hblank name.word hmore
  obtain ⟨target, hshift, hopen, hending⟩ : ∃ target,
      Automaton.actions k.state (wordSymbol k.state name.bytes) = [.shift target] ∧
        target ∈ slot.opening ∧
        (slot.afterLiteral target, Phrase.importSpec, 2) ∈ slot.endings := by
    rw [hk]
    rcases wordSymbol_alias slot name with hsymbol | hsymbol
    · rw [hsymbol]
      exact ⟨slot.named, slot.actions_shift (by simp [Slot.shifts]), by simp [Slot.opening],
        by simp [Slot.endings]⟩
    · rw [hsymbol]
      exact ⟨slot.marked, slot.actions_shift (by simp [Slot.shifts]), by simp [Slot.opening],
        by simp [Slot.endings]⟩
  exact ⟨target, _, .one (.of_forms hread rfl (.refl k) hshift) (by decide)
    (Mark.offset_lt_token h name.ne_nil), hopen, hending, Tree.covers_token _ _ _ _⟩

/-- A dot is read as an alias. It becomes a phrase before the literal. -/
theorem reads_dot (hk : k.state = slot.state)
    (h : (k.mark start).rest = w ++ ([Header.dotByte] ++ more))
    (hpos : 0 < (k.mark start).offset) (hw : ∀ b ∈ w, isBlankByte b = true)
    (hmore : ∀ b ∈ more.head?, isBlankByte b = true ∨ b = quoteByte ∨ b = rawQuoteByte) :
    ∃ token tree : Tree, Reads start 1 k ((12, token) :: k) ∧
      (∀ t ∈ [Symbol.quote, .rawQuote],
        Forms start t 1 ((12, token) :: k) ((slot.marked, tree) :: k)) ∧
      token.stop = ((k.mark start).past w).past [Header.dotByte] ∧
      tree.Covers ((k.mark start).past w) token.stop [] := by
  obtain ⟨hmode, hbom, htight, hblank⟩ := slot_ready hk hpos hw
  have hsymbol : symbolAt? (modeSymbols (Automaton.mode k.state)) (Header.dotByte :: more) =
      some (.dot, 1) := by
    rw [hmode]
    exact symbolAt?_dot hmore
  have hread := readToken_sign h hbom htight hblank (by decide) hsymbol (by decide)
  have hshift : Automaton.actions k.state .dot = [.shift 12] := by
    rw [hk]
    exact slot.actions_shift (by simp [Slot.shifts])
  let token := (k.mark start).token .dot w [Header.dotByte]
  refine ⟨token, .formed .dotName [token] (k.mark start),
    .one (.of_forms ⟨_, hread⟩ rfl (.refl k) hshift) (by decide)
      (Mark.offset_lt_token h (by simp)), ?_, rfl, ?_⟩
  · intro t ht
    have hrule : Automaton.actions 12 t = [.reduce ⟨.dotName, 1, 0⟩] :=
      Automaton.rule_entry (by decide) ht
    rw [← slot.outset.2.2.1, ← hk]
    exact .one [(12, token)] hrule (by simp [Column.Plain, token]) (by simp)
  · exact Tree.covers_formed_plain (.one (Tree.covers_token _ _ _ _)) (by decide)

theorem reads_spec (hk : k.state = slot.state)
    (h : (k.mark start).rest = w ++ (s.bytes ++ more)) (hpos : 0 < (k.mark start).offset)
    (hw : ∀ b ∈ w, isBlankByte b = true) :
    ∃ n k₁ tree, Reads start n k k₁ ∧ Pending start slot.ends 2 k₁ ((slot.done, tree) :: k) ∧
      tree.Covers ((k.mark start).past w) (((k.mark start).past w).past s.bytes)
        [specEvent ((k.mark start).past w) s] := by
  have hrest := Mark.rest_past h
  obtain ⟨alias?, style, path⟩ := s
  cases alias? with
  | none =>
    have haliased : Aliased slot ((k.mark start).past w) ⟨none, style, path⟩ [] k := by
      refine ⟨by simp [Column.Plain], by simp, ?_, ?_, fun _ => rfl, by simp, by simp⟩
      · simp [hk, Slot.opening]
      · simp [hk, Slot.endings]
    have hmode := (slot_ready hk hpos hw).1
    exact haliased.reads hk hrest (by simp [hmode]) (fun t _ => .refl k) (by decide) hw h hpos rfl
  | some x =>
    obtain ⟨a, gap⟩ := x
    let s : Spec := ⟨some (a, gap), style, path⟩
    have hbytes : (k.mark start).rest = w ++ (a.bytes ++ (gap.bytes ++ (s.literal ++ more))) := by
      simpa [Spec.bytes, Spec.label, s] using h
    have hin : (((k.mark start).past w).past a.bytes).rest = gap.bytes ++ (s.literal ++ more) :=
      Mark.rest_past (Mark.rest_past hbytes)
    have hat : (((k.mark start).past w).past a.bytes).past gap.bytes =
        ((k.mark start).past w).past s.label := Mark.past_past _ _ _
    have hhead : ∀ b ∈ (gap.bytes ++ (s.literal ++ more)).head?,
        isBlankByte b = true ∨ b = style.byte :=
      (head?_gap gap.blank :
        ∀ b ∈ (gap.bytes ++ style.byte :: (path.bytes ++ [style.byte] ++ more)).head?, _)
    cases a with
    | name name =>
      have hmore : ∀ b ∈ (gap.bytes ++ (s.literal ++ more)).head?, isWordEnd b = true := by
        intro b hb
        rcases hhead b hb with hblank | rfl
        · exact isWordEnd_of_isBlankByte hblank
        · cases style <;> decide
      obtain ⟨target, token, hread, hopen, hending, htoken⟩ := reads_name hk hbytes hpos hw hmore
      rw [Alias.bytes, ← htoken.stop] at hin hat
      have haliased : Aliased slot _ s [(target, token)] k := aliased_one hopen hending htoken
      have hmode : Automaton.mode (Column.state ((target, token) :: k)) ∈ [1, 3] :=
        (slot.literal hopen).1
      obtain ⟨n, k₁, tree, hreads, hspec, hcovers⟩ := haliased.reads hk hrest hmode
        (fun t _ => .refl _) (by decide) gap.blank hin (Nat.zero_lt_of_lt hread.le_offset) hat
      exact ⟨_, k₁, tree, hread.trans hreads, hspec, hcovers⟩
    | dot =>
      have hmore : ∀ b ∈ (gap.bytes ++ (s.literal ++ more)).head?,
          isBlankByte b = true ∨ b = quoteByte ∨ b = rawQuoteByte := by
        intro b hb
        refine (hhead b hb).imp_right ?_
        cases style
        · exact .inl
        · exact .inr
      obtain ⟨token, dotted, hread, hforms, hstop, halias⟩ := reads_dot hk hbytes hpos hw hmore
      rw [Alias.bytes, ← hstop] at hin hat
      have haliased : Aliased slot _ s [(slot.marked, dotted)] k :=
        aliased_one (by simp [Slot.opening]) (by simp [Slot.endings]) halias
      have hmode : Automaton.mode (Column.state ((12, token) :: k)) ∈ [1, 3] := by
        rw [Column.state_cons, Automaton.mode_entry (by decide : (12, 1) ∈ Automaton.modeEntries)]
        decide
      obtain ⟨n, k₁, tree, hreads, hspec, hcovers⟩ := haliased.reads hk hrest hmode hforms
        (by decide) gap.blank hin (Nat.zero_lt_of_lt hread.le_offset) hat
      exact ⟨_, k₁, tree, hread.trans hreads, hspec, hcovers⟩

end Spec

end ImportGroups.Source
