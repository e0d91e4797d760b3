import ImportGroups.Proofs.Body.Imports
import ImportGroups.Proofs.LeadingComment.Lowering

/-!
Straight readings behind a comment line.

A comment may stand anywhere, so the reader lays it down and is in the state it was in. What it then
does it does on top of the comment, and just as it would do it on nothing. If one version reads a source
from its beginning to its end, one version also reads it behind the comment, and finds the same further
down.
-/

namespace ImportGroups

open Text (Bytes)
open Header (LineBreak)
open Body (Item itemBytes)

structure LineComment where
  text : Bytes
  clean : ∀ b ∈ text, b ≠ Source.lineFeed ∧ b ≠ 0

namespace LineComment

def token (c : LineComment) : Bytes := 0x2F :: 0x2F :: c.text

def bytes (c : LineComment) : Bytes := c.token ++ [Source.lineFeed]

theorem commentLength_token (c : LineComment) (more : Bytes) :
    Source.commentLength (c.token ++ Source.lineFeed :: more) = c.token.length := by
  have hrun : (c.text ++ Source.lineFeed :: more).takeWhile
      (fun b => b != Source.lineFeed && b != 0) = c.text :=
    Source.takeWhile_append_stop (fun b hb => by simp [c.clean b hb]) (by simp)
  simp only [token, List.cons_append, Source.commentLength, hrun, List.length_cons]
  omega

end LineComment

namespace Source

section Lower

variable {start start' : Mark} {t : Symbol} {n l : Nat} {k k' top below : Column}

def Column.lower (n : Nat) (k : Column) : Column := k.map fun x => (x.1, x.2.lower n)

theorem Column.lower_cons (n : Nat) (s : State) (t : Tree) (k : Column) :
    lower n ((s, t) :: k) = (s, t.lower n) :: lower n k := rfl

@[simp] theorem Column.lower_append (n : Nat) (k k' : Column) :
    lower n (k ++ k') = lower n k ++ lower n k' :=
  List.map_append

@[simp] theorem Column.state_lower (n : Nat) (k : Column) : (k.lower n).state = k.state := by
  cases k <;> rfl

@[simp] theorem Column.trees_lower (n : Nat) (k : Column) :
    (k.lower n).trees = k.trees.map (Tree.lower n) := by
  simp [trees, lower]

theorem Column.Top.lower (h : Top l top) : Top l (Column.lower n top) := by
  induction h with
  | last ht => exact .last (by simpa using ht)
  | part ht _ ih => exact .part (by simpa using ht) ih
  | extra ht _ ih => exact .extra (by simpa using ht) ih

theorem Column.Top.parts_ne_nil (h : Top l top) : top.dropWhile (·.2.extra) ≠ [] := by
  induction h with
  | last ht => simp [ht]
  | part ht _ _ => simp [ht]
  | extra ht _ ih => simpa [ht] using ih

theorem Column.reduce_lower {rule : Rule} (h : Top rule.parts top) :
    reduce start' rule (top.lower n) (below.lower n) = (reduce start rule top below).lower n := by
  have hextra : (fun x : State × Tree => x.2.extra) ∘
      (fun x : State × Tree => (x.1, x.2.lower n)) = fun x => x.2.extra := by
    funext x
    exact Tree.lower_extra n x.2
  have hparts : trees ((top.lower n).dropWhile (·.2.extra)) =
      (trees (top.dropWhile (·.2.extra))).map (Tree.lower n) := by
    rw [← trees_lower, lower, lower, List.dropWhile_map, hextra]
  have hne : trees (top.dropWhile (·.2.extra)) ≠ [] := by
    simpa [trees] using h.parts_ne_nil
  have hnode := Tree.lower_node n rule.phrase hne (below.mark start) ((below.lower n).mark start')
  have hextras : ∀ s : State, ((top.lower n).takeWhile (·.2.extra)).map (fun x => (s, x.2)) =
      lower n ((top.takeWhile (·.2.extra)).map fun x => (s, x.2)) := by
    intro s
    rw [lower, lower, List.takeWhile_map, hextra, List.map_map, List.map_map]
    rfl
  rw [reduce, reduce, hparts, ← hnode, state_lower, lower_append, Tree.lower_rank,
    Tree.lower_withRank, hextras, lower_cons]

theorem Forms.lower (start' : Mark) (h : Forms start t l k k') :
    Forms start' t l (k.lower n) (k'.lower n) := by
  induction h with
  | refl k => exact .refl _
  | step ha htop _ ih =>
    rw [Column.lower_append]
    refine .step ?_ htop.lower ?_
    · rwa [← Column.lower_append, Column.state_lower]
    · rwa [Column.reduce_lower htop]

theorem Takes.actions_ne_nil {token : Tree} (h : Takes start token l k k') :
    ∃ t, token.symbol? = some t ∧ Automaton.actions k.state t ≠ [] := by
  obtain ⟨t, target, k₁, ht, hforms, hshift, -⟩ := h.takes
  refine ⟨t, ht, ?_⟩
  cases hforms with
  | refl => simp [hshift]
  | step ha => simp [ha]

theorem Ends.actions_ne_nil {token : Tree} (h : Ends start token l k k') :
    Automaton.actions k.state .endOfFile ≠ [] := by
  obtain ⟨-, -, hforms, hstate⟩ := h
  cases hforms with
  | refl => simp [hstate, actions_final]
  | step ha => simp [ha]

theorem Column.mark_lower (start start' : Mark) (n : Nat) (hk : k ≠ []) : (k.lower n).mark start' = (k.mark start).down n := by
  cases k with
  | nil => exact absurd rfl hk
  | cons x k => exact Tree.lower_stop n x.2

-- the mark stands before the end of the line before the source
variable {source : Bytes} (hstart : start'.Follows n source)
  (hbom : (Mark.ofSource source).skipByteOrderMark = .ofSource source)

/-- Columns of a reading from the beginning of the source on. -/
def Column.Begun (source : Bytes) (k : Column) : Prop :=
  k = [] ∨ 0 < (k.mark (.ofSource source)).offset

include hstart hbom in
theorem Column.Begun.readToken (hk : k.Begun source) {token : Tree} {isKeyword : Bool}
    (hread : readToken k.state (k.mark (.ofSource source)) = (token, isKeyword))
    (ht : token.symbol? = some t) (ha : Automaton.actions k.state t ≠ []) :
    readToken (k.lower n).state ((k.lower n).mark start') = (token.lower n, isKeyword) := by
  rw [Column.state_lower]
  by_cases hnil : k = []
  · rw [hnil] at hread ha ⊢
    exact hstart.readToken hbom hread ht ha
  · have hpos := hk.resolve_left hnil
    rw [Column.mark_lower (.ofSource source) start' n hnil]
    exact readToken_down hpos hread ht

include hstart hbom in
theorem Takes.lower {token : Tree} (hk : k.Begun source) (h : Takes (.ofSource source) token l k k') :
    Takes start' (token.lower n) l (k.lower n) (k'.lower n) := by
  obtain ⟨isKeyword, hread⟩ := h.reads
  obtain ⟨t, ht, ha⟩ := h.actions_ne_nil
  obtain ⟨t', target, k₁, ht', hforms, hshift, rfl⟩ := h.takes
  refine ⟨⟨isKeyword, hk.readToken hstart hbom hread ht ha⟩, t', target, k₁.lower n, ?_,
    hforms.lower start', ?_, rfl⟩
  · rwa [Tree.lower_symbol?]
  · rwa [Column.state_lower]

include hstart in
theorem Column.offset_lower_le (k : Column) :
    ((k.lower n).mark start').offset ≤ (k.mark (.ofSource source)).offset + n := by
  by_cases hnil : k = []
  · have := hstart.offset
    rw [hnil]
    show start'.offset ≤ 0 + n
    omega
  · rw [Column.mark_lower (.ofSource source) start' n hnil, Mark.offset_down]

include hstart hbom in
theorem Round.lower (hk : k.Begun source) (h : Round (.ofSource source) k k') :
    Round start' (k.lower n) (k'.lower n) := by
  have hle := Column.offset_lower_le hstart k
  have hlt : ∀ {token : Tree}, (k.mark (.ofSource source)).offset < token.stop.offset →
      ((k.lower n).mark start').offset < (token.lower n).stop.offset := by
    intro token htoken
    rw [Tree.lower_stop, Mark.offset_down]
    omega
  cases h with
  | one htakes hn htoken => exact .one (htakes.lower hstart hbom hk) hn (hlt htoken)
  | @two empty token t _ _ k₁ _ hpos hempty hm hsame hsymbol hadmits htakes hn htoken =>
    have hnil : k ≠ [] := by
      rintro rfl
      exact absurd hpos (Nat.lt_irrefl 0)
    have hmark := Column.mark_lower (.ofSource source) start' n hnil
    have hk₁ : k₁.Begun source := .inr (by rw [hempty.mark, hsame]; exact hpos)
    refine .two ?_ (hempty.lower hstart hbom hk) hm ?_ (by rwa [Tree.lower_symbol?]) ?_
      (htakes.lower hstart hbom hk₁) hn (hlt htoken)
    · rw [hmark, Mark.offset_down]
      omega
    · rw [hmark, Tree.lower_stop, Mark.offset_down, Mark.offset_down, hsame]
    · rwa [Column.state_lower]
  | @pass token t isKeyword hread ht ha htoken =>
    have hpass := hk.readToken hstart hbom hread ht (by simp [ha])
    rw [Column.lower_cons, ← Tree.lower_withExtra, ← Column.state_lower n]
    exact .pass hpass (by rwa [Tree.lower_symbol?]) (by rwa [Column.state_lower]) (hlt htoken)

include hstart hbom in
theorem Reads.lower (hk : k.Begun source) (h : Reads (.ofSource source) l k k') :
    Reads start' l (k.lower n) (k'.lower n) := by
  induction h with
  | refl k => exact .refl _
  | head hround _ ih =>
    have hnext := Nat.zero_lt_of_lt hround.offset_lt
    exact .head (hround.lower hstart hbom hk) (ih (.inr hnext))

include hstart hbom in
theorem Ends.lower {token : Tree} (hk : k.Begun source) (h : Ends (.ofSource source) token l k k') :
    Ends start' (token.lower n) l (k.lower n) (k'.lower n) := by
  obtain ⟨isKeyword, hread⟩ := h.reads
  have ha := h.actions_ne_nil
  refine ⟨⟨isKeyword, hk.readToken hstart hbom hread h.symbol ha⟩, ?_, h.forms.lower start', ?_⟩
  · rw [Tree.lower_symbol?, h.symbol]
  · rw [Column.state_lower, h.state]

end Lower

section Above

variable {start : Mark} {t : Symbol} {token : Tree} {n : Nat} {k k' base : Column}

theorem Column.mark_append (start : Mark) (k base : Column) :
    mark start (k ++ base) = mark (base.mark start) k := by
  cases k <;> rfl

theorem Column.state_append (hbase : base.state = Automaton.initial) (k : Column) :
    state (k ++ base) = state k := by
  cases k with
  | nil => exact hbase
  | cons x k => rfl

theorem Column.reduce_append (hbase : base.state = Automaton.initial) (rule : Rule)
    (top below : Column) :
    reduce start rule top (below ++ base) = reduce (base.mark start) rule top below ++ base := by
  simp only [reduce, mark_append, state_append hbase, List.cons_append, List.append_assoc]

theorem Forms.above (hbase : base.state = Automaton.initial)
    (h : Forms (base.mark start) t n k k') : Forms start t n (k ++ base) (k' ++ base) := by
  induction h with
  | refl k => exact .refl _
  | step ha htop _ ih =>
    rw [List.append_assoc]
    refine .step ?_ htop ?_
    · rwa [← List.append_assoc, Column.state_append hbase]
    · rwa [Column.reduce_append hbase]

theorem Takes.above (hbase : base.state = Automaton.initial)
    (h : Takes (base.mark start) token n k k') : Takes start token n (k ++ base) (k' ++ base) := by
  obtain ⟨t, target, k₁, ht, hforms, hshift, rfl⟩ := h.takes
  refine ⟨?_, t, target, k₁ ++ base, ht, hforms.above hbase, ?_, rfl⟩
  · rw [Column.state_append hbase, Column.mark_append]
    exact h.reads
  · rwa [Column.state_append hbase]

theorem Round.above (hbase : base.state = Automaton.initial) (h : Round (base.mark start) k k') :
    Round start (k ++ base) (k' ++ base) := by
  have hmark := Column.mark_append start k base
  cases h with
  | one htakes hn hlt =>
    refine .one (htakes.above hbase) hn ?_
    rwa [hmark]
  | two hpos hempty hm hsame hsymbol hadmits htakes hn hlt =>
    refine .two ?_ (hempty.above hbase) hm ?_ hsymbol ?_ (htakes.above hbase) hn ?_
    · rwa [hmark]
    · rwa [hmark]
    · rwa [Column.state_append hbase]
    · rwa [hmark]
  | pass hread ht ha hlt =>
    rw [← hmark, ← Column.state_append hbase k] at hread
    rw [← Column.state_append hbase k] at ha
    rw [List.cons_append, ← Column.state_append hbase k]
    exact .pass hread ht ha (by rwa [hmark])

theorem Reads.above (hbase : base.state = Automaton.initial)
    (h : Reads (base.mark start) n k k') : Reads start n (k ++ base) (k' ++ base) := by
  induction h with
  | refl k => exact .refl _
  | head hround _ ih => exact .head (hround.above hbase) ih

theorem Ends.above (hbase : base.state = Automaton.initial)
    (h : Ends (base.mark start) token n k k') : Ends start token n (k ++ base) (k' ++ base) := by
  refine ⟨?_, h.symbol, h.forms.above hbase, ?_⟩
  · rw [Column.state_append hbase, Column.mark_append]
    exact h.reads
  · rw [Column.state_append hbase]
    exact h.state

end Above

theorem readToken_comment (c : LineComment) {m : Mark} {more : Bytes}
    (hrest : m.rest = c.token ++ lineFeed :: more) :
    readToken Automaton.initial m = (m.token .comment [] c.token, false) := by
  have hmode : Automaton.mode Automaton.initial = 1 := Automaton.mode_entry (by decide)
  have hset : (modeSymbols 1).contains .comment = true := by decide
  have hlength := c.commentLength_token more
  refine readToken_of_lex? ?_ (by decide)
  rw [hmode]
  refine lex?_of_symbolAt hrest (Mark.skipByteOrderMark_of_head hrest (by decide))
    (tightSymbolAt?_eq_none (by decide) _) (by simp) ?_ ?_
  · intro b hb
    obtain rfl : 0x2F = b := by simpa [LineComment.token] using hb
    decide
  · simp only [LineComment.token, List.cons_append] at hlength ⊢
    simp [symbolAt?, hset, hlength, show (0x2F : UInt8) ≠ lineFeed by decide]

theorem Mark.past_line {m : Mark} {text more : Bytes} (h : m.rest = text ++ more)
    (hline : lineFeed ∉ text) : m.past text = ⟨⟨m.offset + text.length, m.line⟩, more⟩ := by
  induction text generalizing m with
  | nil =>
    obtain ⟨spot, rest⟩ := m
    obtain rfl : rest = more := h
    rfl
  | cons b text ih =>
    have hb : b ≠ lineFeed := fun heq => hline (heq ▸ List.mem_cons_self)
    have hstep : m.step = ⟨⟨m.offset + 1, m.line⟩, text ++ more⟩ := by
      simp [step, h, hb]
    rw [Mark.past, List.length_cons, advance, hstep]
    refine (ih rfl fun hmem => hline (List.mem_cons_of_mem b hmem)).trans ?_
    simp [Nat.add_assoc, Nat.add_comm 1]

/-- Behind the comment the reader is where it starts without it, further down. -/
theorem past_comment (c : LineComment) (source : Bytes) :
    ((Mark.ofSource (c.bytes ++ source)).past c.token).Follows c.bytes.length source := by
  have hrest : (Mark.ofSource (c.bytes ++ source)).rest = c.token ++ lineFeed :: source := by
    simp [Mark.ofSource, LineComment.bytes]
  have hline : lineFeed ∉ c.token := by
    intro hmem
    have hslash : lineFeed ≠ 0x2F := by decide
    have htext : lineFeed ∈ c.text := by simpa [LineComment.token, hslash] using hmem
    exact (c.clean lineFeed htext).1 rfl
  rw [Mark.past_line hrest hline]
  refine ⟨rfl, ?_, ?_⟩
  · exact Nat.lt_of_lt_of_le (Nat.zero_lt_succ _) (Nat.le_add_left _ _)
  · simp [Mark.step, Mark.ofSource, Mark.down, Spot.down, LineComment.bytes]

/-- The tree of a whole source with one more tree before those that were read. -/
theorem wholeTree_behind {ts : List Tree} {tree : Tree} {here : Mark}
    (h : Contest.wholeTree here ts = some tree) (n : Nat) (first : Tree) (here' : Mark) :
    ∃ us, tree = .node tree.label us here ∧
      Contest.wholeTree here' (first :: ts.map (Tree.lower n)) =
        some (.node tree.label (first :: us.map (Tree.lower n)) here') := by
  let isEnd := fun (t : Tree) => t.extra || t.label == .token .endOfFile
  let tail := ts.reverse.takeWhile isEnd
  have htail : ∀ t ∈ tail.map (Tree.lower n), isEnd t = true := by
    intro t ht
    obtain ⟨u, hu, rfl⟩ := List.mem_map.mp ht
    simpa [isEnd] using List.mem_takeWhile_imp hu
  cases hdrop : ts.reverse.dropWhile isEnd with
  | nil =>
    unfold Contest.wholeTree at h
    simp only [isEnd] at hdrop
    simp [hdrop] at h
  | cons root before =>
    have hroot : isEnd (root.lower n) = false := by
      have hhead := List.head?_dropWhile_not isEnd ts.reverse
      rw [hdrop] at hhead
      simpa [isEnd] using hhead
    have hsplit : (first :: ts.map (Tree.lower n)).reverse =
        tail.map (Tree.lower n) ++ root.lower n :: (before.map (Tree.lower n) ++ [first]) := by
      have hts : ts.reverse = tail ++ root :: before := by
        rw [← hdrop, List.takeWhile_append_dropWhile]
      rw [List.reverse_cons, ← List.map_reverse, hts]
      simp
    have htake : (first :: ts.map (Tree.lower n)).reverse.takeWhile isEnd =
        tail.map (Tree.lower n) := by
      rw [hsplit, List.takeWhile_append_of_pos htail, List.takeWhile_cons_of_neg (by simp [hroot]),
        List.append_nil]
    have hdrop' : (first :: ts.map (Tree.lower n)).reverse.dropWhile isEnd =
        root.lower n :: (before.map (Tree.lower n) ++ [first]) := by
      rw [hsplit, List.dropWhile_append_of_pos htail, List.dropWhile_cons_of_neg (by simp [hroot])]
    have hsome : some (Tree.node root.label (before.reverse ++ root.children ++ tail.reverse) here) =
        some tree := by
      rw [← h, Contest.wholeTree]
      simp only [isEnd] at hdrop
      simp only [hdrop]
      rfl
    obtain rfl := Option.some.inj hsome
    refine ⟨_, rfl, ?_⟩
    rw [Contest.wholeTree]
    simp only [isEnd] at htake hdrop'
    simp only [htake, hdrop']
    simp [Tree.node]

theorem Reads.begun {source : Bytes} {l : Nat} {k : Column} (h : Reads (.ofSource source) l [] k) :
    k.Begun source := by
  cases h with
  | refl => exact .inl rfl
  | head hround hrest =>
    have hle := hrest.le_offset
    have hlt := hround.offset_lt
    exact .inr (by omega)

/-- The reading of a source goes on above the comment before it. -/
theorem Straight.behind (c : LineComment) {source : Bytes} {tree : Tree} (h : Straight source tree)
    (hbom : (Mark.ofSource source).skipByteOrderMark = .ofSource source) :
    ∃ tree', Straight (c.bytes ++ source) tree' ∧
      tree'.events = tree.events.map (Event.down c.bytes.length) := by
  obtain @⟨m, l, k, k', token, _, hreads, hends, hl, hbound, htree, hlabel⟩ := h
  let n := c.bytes.length
  let start := Mark.ofSource (c.bytes ++ source)
  let passed := start.token .comment [] c.token
  let first : Tree := { passed with extra := true }
  let base : Column := [(Automaton.initial, first)]
  have hbase : base.state = Automaton.initial := rfl
  have hstart : (base.mark start).Follows n source := past_comment c source
  have hrest : start.rest = [] ++ (c.token ++ lineFeed :: source) := by
    simp [start, Mark.ofSource, LineComment.bytes]
  have hpass : Round start [] base :=
    .pass (k := []) (readToken_comment c hrest) rfl rfl
      (Mark.offset_lt_token hrest (by simp [LineComment.token]))
  have hreads' := (hreads.lower hstart hbom (.inl rfl)).above hbase
  have hends' := (hends.lower hstart hbom hreads.begun).above hbase
  have hbound' : ((k.lower n ++ base).mark start).offset ≤ (c.bytes ++ source).length := by
    have hle := Column.offset_lower_le hstart k
    rw [Column.mark_append, List.length_append]
    omega
  obtain ⟨us, hnode, hwhole⟩ := wholeTree_behind htree n first (token.lower n).stop
  have htrees : (k'.lower n ++ base).trees ++ [token.lower n] =
      first :: (k'.trees ++ [token]).map (Tree.lower n) := by
    simp [base]
  rw [← htrees] at hwhole
  refine ⟨_, .intro (.head hpass hreads') hends' hl hbound' hwhole hlabel, ?_⟩
  rw [hlabel] at hnode ⊢
  rw [hnode]
  exact Tree.events_behind n rfl rfl rfl rfl us _ _

end Source

end ImportGroups
