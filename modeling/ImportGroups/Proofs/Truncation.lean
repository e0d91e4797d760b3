import ImportGroups.Proofs.RoundTrip
import ImportGroups.Proofs.Truncation.Cuts

/-!
Files that break off in their import block.

Up to the parenthesis that opens the block the file is read without a fault. Where it breaks off behind
that the reading halts, and by the tree that it finds then the imports of the file are unknown.
-/

namespace ImportGroups

open Text (Bytes)
open Source (lineFeed)

namespace Header

open Source (prefix_append_cases)

def Block.inside (b : Block) : Bytes :=
  b.lead.bytes ++ (b.first.bytes ++ (Block.moreBytes b.more ++ b.tail.bytes))

/-- A file with a block up to the parenthesis that opens it. -/
def untilOpen (p : Name) : Bytes :=
  packageBytes ++ (spaceByte :: (p.bytes ++ (lineFeed :: (importBytes ++
    [spaceByte, leftParenByte]))))

def untilClosed (p : Name) (b : Block) : Bytes := untilOpen p ++ (b.inside ++ [rightParenByte])

theorem file_eq (p : Name) (b : Block) : file p b = untilClosed p b ++ [lineFeed] := by
  have hspecs : joined (b.specs.zip (b.separators ++ [b.tail.bytes])) =
      b.first.bytes ++ (Block.moreBytes b.more ++ b.tail.bytes) := joined_specs _ _ _
  rw [file, hspecs]
  simp [opening, untilClosed, untilOpen, Block.inside]

theorem prefix_inside {p : Name} {b : Block} {text : Bytes} (hfile : text <+: file p b)
    (hopen : untilOpen p <+: text) (hclosed : ¬ untilClosed p b <+: text) :
    ∃ part, text = untilOpen p ++ part ∧ part <+: b.inside := by
  obtain ⟨part, rfl⟩ := hopen
  refine ⟨part, rfl, ?_⟩
  rw [file_eq, untilClosed, List.append_assoc, List.prefix_append_right_inj, List.append_assoc] at hfile
  rw [untilClosed, List.prefix_append_right_inj] at hclosed
  rcases prefix_append_cases hfile with hinside | ⟨more, rfl, hmore⟩
  · exact hinside
  · rcases prefix_append_cases hmore with hnone | ⟨_, rfl, -⟩
    · rcases List.prefix_cons_iff.mp hnone with rfl | ⟨_, rfl, hnil⟩
      · simp
      · obtain rfl := List.prefix_nil.mp hnil
        exact absurd (List.prefix_refl _) hclosed
    · exact absurd (by simp) hclosed

end Header

namespace Source

open Header (Name Block untilOpen oneSpace packageBytes importBytes)

variable {start : Mark} {src text : Bytes}

theorem readToken_on {s : State} {m : Mark} (token : Tree) {isKeyword : Bool} (hm : m.On src)
    (hread : readToken s m = (token, isKeyword)) : token.stop.On src := by
  have htoken := readToken_isToken s hm
  rw [hread] at htoken
  exact htoken.sound.stop

theorem Takes.on {token : Tree} {n : Nat} {k k' : Column} (h : Takes start token n k k')
    (hk : (k.mark start).On src) : (k'.mark start).On src := by
  obtain ⟨isKeyword, hread⟩ := h.reads
  rw [h.mark]
  exact readToken_on token hk hread

theorem Reads.on {n : Nat} {k k' : Column} (h : Reads start n k k') (hk : (k.mark start).On src) :
    (k'.mark start).On src := by
  induction h with
  | refl => exact hk
  | head hround _ ih =>
    refine ih ?_
    cases hround with
    | one htakes => exact htakes.on hk
    | two _ hempty _ _ _ _ htakes => exact htakes.on (hempty.on hk)
    | @pass token _ _ hread => exact readToken_on token hk hread

def Column.opening (items word paren : Tree) : Column := [(10, paren), (3, word), (7, items)]

/-- The items of the file, the word and the parenthesis that opens the block. -/
structure Underlay (items word paren : Tree) : Prop where
  head : items.IsHead items.stop.offset
  isWord : word.IsWord items.stop.offset word.stop.offset
  label : paren.label = .token .leftParen
  extra : paren.extra = false
  pos : 0 < items.stop.offset
  word_lt : items.stop.offset < word.stop.offset
  paren_lt : word.stop.offset < paren.stop.offset

theorem Tree.isHead_items {clause feed : Tree} {a b : Spot} (m : Mark)
    (hclause : clause.Holds [] [.packageClause a b]) (hstart : clause.start.offset = 0)
    (hfeed : feed.Holds [] []) :
    (Tree.formed .fileItems [clause, feed] m).IsHead feed.stop.offset where
  label := .inl rfl
  extra := rfl
  start := hstart
  le := Nat.le_refl _
  clause := by
    obtain ⟨_, _, hcovers⟩ := hclause.covers
    refine ⟨a, b, List.mem_flatMap.mpr ⟨clause, List.mem_cons_self, ?_⟩⟩
    rw [hcovers.outline]
    exact List.mem_cons_self
  others := by
    show ∀ o ∈ [clause, feed].flatMap Tree.others, _
    simp [hclause.others, hfeed.others]
  guilty := .inl rfl

theorem reads_untilOpen (start : Mark) {p : Name} (hstart : start.offset = 0)
    (hrest : start.rest = untilOpen p ++ text) :
    ∃ m items word paren, Underlay items word paren ∧
      Reads start m [] (.opening items word paren) ∧ paren.stop.rest = text := by
  let inner : Bytes := oneSpace.bytes ++ ([Header.leftParenByte] ++ text)
  let nothing : Header.Blanks := ⟨[], Header.blank_nil⟩
  have hclause : start.rest = nothing.bytes ++ (packageBytes ++ (oneSpace.bytes ++ (p.bytes ++
      ([lineFeed] ++ (importBytes ++ inner))))) := by
    simpa [untilOpen, oneSpace, inner, nothing] using hrest
  -- the package clause with the line feed behind it
  obtain ⟨l, k, clause, hreads, hpending, hholds, hmark, hpos, hfirst⟩ :=
    reads_clause hclause (by simp; decide)
  have hrest₁ : (k.mark start).rest = [lineFeed] ++ (importBytes ++ inner) := by
    rw [hmark]
    exact Mark.rest_past (by simpa [nothing] using hclause)
  have hbroken : Broken [lineFeed] [] [lineFeed] [] :=
    ⟨rfl, by simp, by simp, by simp, by simp, by simp⟩
  obtain ⟨hline, hrest₂, -⟩ := (hpending.closes (by decide)).reads_newline (by decide) hbroken hrest₁
    hpos (head?_word Header.isWord_importBytes inner)
    (Automaton.shift_entry (by decide : (5, .newline, 17) ∈ Automaton.shiftEntries))
  let feed := (k.mark start).token .newline [] [lineFeed]
  have hpos₂ : 0 < feed.stop.offset := Nat.zero_lt_of_lt hline.le_offset
  -- the word behind them, before which they become the items
  let items := Tree.formed .fileItems [clause, feed] start
  let word := feed.stop.token .importWord [] importBytes
  have hrule : Automaton.actions 17 .importWord = [.reduce ⟨.fileItems, 2, 0⟩] :=
    Automaton.rule_entry (by decide : (17, itemStarts, _) ∈ Automaton.ruleEntries) (by decide)
  obtain ⟨isKeyword, hread⟩ := readToken_itemWord (k := [(17, feed), (5, clause)]) (by simp) hrest₂
    (Mark.skipByteOrderMark_of_pos hpos₂) (by simp) Header.isWord_importBytes
    (by simp [inner, oneSpace]; decide)
  rw [Column.state_cons, wordSymbol_of_actions (by decide) hrule] at hread
  obtain ⟨a, b, hcovers⟩ := hholds.covers
  have hforms : Forms start .importWord 1 [(17, feed), (5, clause)] [(7, items)] := by
    rw [← afterPhrase_fileItems.1]
    exact .one (k := []) [(17, feed), (5, clause)] hrule (by simp [Column.Plain, hcovers.extra, feed])
      (by simp)
  have hshift : Automaton.actions 7 .importWord = [.shift 3] := Automaton.shift_entry (by decide)
  have htakes : Takes start word 1 [(17, feed), (5, clause)] [(3, word), (7, items)] :=
    .of_forms ⟨_, hread⟩ rfl hforms hshift
  have hlt : feed.stop.offset < word.stop.offset := Mark.offset_lt_token hrest₂ (by decide)
  have hpos₃ : 0 < word.stop.offset := Nat.zero_lt_of_lt hlt
  -- and the parenthesis
  have hrest₃ : word.stop.rest = oneSpace.bytes ++ ([Header.leftParenByte] ++ text) :=
    Mark.rest_token hrest₂
  let paren := word.stop.token .leftParen oneSpace.bytes [Header.leftParenByte]
  have hparen : Reads start 1 [(3, word), (7, items)] (.opening items word paren) :=
    reads_leftParen (w := oneSpace.toBlanks) rfl hrest₃ hpos₃
  refine ⟨_, items, word, paren, ⟨?_, ⟨rfl, rfl, rfl, rfl⟩, rfl, rfl, hpos₂, hlt, ?_⟩,
    hreads.trans (hline.trans ((Reads.one htakes (by decide) hlt).trans hparen)), ?_⟩
  · exact Tree.isHead_items start hholds (hfirst ▸ hstart) (Tree.holds_newline _ _ _)
  · exact Mark.offset_lt_token hrest₃ (by simp)
  · exact Mark.rest_token hrest₃

theorem Underlay.keeps {items word paren : Tree} (h : Underlay items word paren) {cut : Cut}
    (hstart : start.offset = 0) (hword : cut.word = items.stop.offset)
    (hbehind : cut.behind = word.stop.offset) :
    (Column.opening items word paren).Keeps cut start := by
  have hpos := h.pos
  have hlt := h.word_lt
  refine ⟨?_, ?_, ?_, trivial⟩
  · exact {
      items := fun (hoffset : word.stop.offset < _) => by omega
      word := fun (hoffset : word.stop.offset = _) => by omega
      inside := fun _ => .inl ⟨rfl, h.label, h.extra⟩
      closing := fun _ hlabel => by simp [h.label] at hlabel }
  · exact {
      items := fun (hoffset : items.stop.offset < _) => by omega
      word := fun _ => ⟨hword ▸ hbehind ▸ .word h.isWord, fun _ => rfl⟩
      inside := fun (hoffset : items.stop.offset = _) => by omega
      closing := fun (hoffset : _ < items.stop.offset) => by omega }
  · exact {
      items := fun _ => ⟨hstart, hword ▸ .head h.head, fun _ => rfl⟩
      word := fun (hoffset : start.offset = _) => by omega
      inside := fun (hoffset : start.offset = _) => by omega
      closing := fun (hoffset : _ < start.offset) => by omega }

theorem Contest.Later.ready {L : Law} [L.Stable] {limit : Nat} {c c' : Contest} (h : c.Later limit c')
    (hc : c.Ready L) : c'.Ready L := by
  induction h with
  | refl => exact hc
  | round far _ ih => exact ih (condense_ready (readAll_ready (v := 0) limit limit far hc))

theorem Halts.not_closed {slot : Slot} {k : Column} (h : Halts start slot k)
    (hk : (k.mark start).On src) : ∀ a, (k.mark start).offset ≤ a → src[a]? ≠ some 0x29 := by
  intro a hle hclosed
  refine h.unclosed 0x29 ?_ rfl
  rw [hk.2]
  refine List.mem_of_getElem? (i := a - (k.mark start).offset) ?_
  rw [List.getElem?_drop, Nat.add_sub_cancel' hle, hclosed]

theorem isFaulty_readTree {m : Nat} {items word paren : Tree} (h : Underlay items word paren)
    (hreads : Reads (.ofSource src) m [] (.opening items word paren))
    (hstops : Stops (.ofSource src) (.opening items word paren) (.opening items word paren)) :
    (readTree src).IsFaulty src.length := by
  obtain ⟨n, slot, k, hslot, hon, hhalts, ⟨top, rfl⟩⟩ := hstops
  let k : Column := top ++ Column.opening items word paren
  have hall : Reads (.ofSource src) (m + n) [] k := hreads.trans hon
  have hmark : (k.mark (.ofSource src)).On src := hall.on (Mark.on_ofSource src)
  have hle : paren.stop.offset ≤ (k.mark (.ofSource src)).offset :=
    Nat.le_trans (Nat.le_add_right _ _) hon.le_offset
  let cut : Cut := {
    src
    word := items.stop.offset
    behind := word.stop.offset
    front := (k.mark (.ofSource src)).offset
    pos := h.pos
    word_lt := h.word_lt
    behind_lt := Nat.lt_of_lt_of_le h.paren_lt hle
    front_le := hmark.1
    unclosed := hhalts.not_closed hmark }
  -- up to the column on which it halts the reading keeps the law of the cut, and then it finds a tree
  obtain ⟨c, fuel, hsingle, hfresh, hrounds, hlater⟩ := rounds_start hall hmark.1
  have hplain : c.Ready (.plain src) := hlater.ready (Contest.start_ready rfl nofun)
  have hready : c.Ready (cut.law false) := hsingle.ready hplain (hhalts.climbs hslot)
    (h.keeps rfl rfl rfl) h.paren_lt (Nat.le_refl _)
  have hfound : ((Contest.start src).rounds (stepLimit src) (stepLimit src) 0).Ready (cut.law true) := by
    rw [hrounds]
    exact Contest.rounds_halts hhalts hslot hsingle hfresh hready (by unfold stepLimit; omega) fuel
  obtain ⟨hsome, hfaulty⟩ := hfound.best
  obtain ⟨tree, hbest⟩ := Option.isSome_iff_exists.mp (hsome rfl)
  have htree : readTree src = tree := by simp only [readTree, hbest, Option.getD_some]
  exact htree ▸ hfaulty tree hbest

/-- The reading halts wherever a file breaks off in its block. -/
theorem stops_block {k : Column} {b : Block} (hk : k.states = Slot.first.column)
    (hpos : 0 < (k.mark start).offset) (hrest : (k.mark start).rest = text)
    (htext : text <+: b.inside) : Stops start k k := by
  rcases prefix_append_cases htext with hlead | ⟨rest, rfl, hmore⟩
  · have hnothing : [] <+: b.first.bytes ++ (Block.moreBytes b.more ++ b.tail.bytes) := List.nil_prefix
    exact Opened.first.stops hk hpos (fun x hx => b.lead.blank x (hlead.subset hx))
      (by simpa using hrest) hnothing
  · exact Opened.first.stops hk hpos b.lead.blank hrest hmore

end Source

open Header (Name Block untilOpen untilClosed file)

theorem sourceImports_untilOpen {p : Name} {b : Block} {text : Bytes} (htext : text <+: b.inside) :
    ∃ line, sourceImports (untilOpen p ++ text) = .error (.syntaxError line) := by
  obtain ⟨m, items, word, paren, hunder, hreads, hrest⟩ :=
    Source.reads_untilOpen (.ofSource (untilOpen p ++ text)) rfl rfl
  have hpos : 0 < paren.stop.offset := Nat.zero_lt_of_lt hunder.paren_lt
  exact (Source.isFaulty_readTree hunder hreads (Source.stops_block rfl hpos hrest htext)).imports

/-- A file that breaks off behind the parenthesis that opens its block, at any byte before the one that
closes it, gives no imports but a syntax error. -/
theorem truncated_block_unknown (p : Name) (b : Block) {text : Bytes} (hfile : text <+: file p b)
    (hopen : untilOpen p <+: text) (hclosed : ¬ untilClosed p b <+: text) :
    ∃ line, sourceImports text = .error (.syntaxError line) ∧
      (SourceError.syntaxError line).message =
        "failed to parse file: syntax error at line " ++ toString line := by
  obtain ⟨part, rfl, hpart⟩ := Header.prefix_inside hfile hopen hclosed
  obtain ⟨line, hline⟩ := sourceImports_untilOpen hpart
  exact ⟨line, hline, rfl⟩

theorem clean_accented : ∀ c ∈ ")é".toList, c ∉ ['"', '`', '\\', '\r', '\n', '\x00'] := by
  simp

/-- A block whose only path has a parenthesis in it, and then a character of two bytes. -/
def accentedBlock : Block where
  lead := Header.oneSpace.toBlanks
  first := ⟨some (.dot, Header.oneSpace.toBlanks), .raw, ⟨")é", clean_accented⟩⟩
  more := []
  tail := ⟨[], Header.blank_nil⟩

/-- The file breaks off in the last character of the path. -/
def brokenFile : Bytes := Text.encodeUtf8 "package p\nimport ( . `)" ++ [0xC3]

theorem truncated_block_unknown_brokenFile :
    ∃ p : Name, brokenFile <+: file p accentedBlock ∧ untilOpen p <+: brokenFile ∧
      ¬ untilClosed p accentedBlock <+: brokenFile ∧
      ∃ line, sourceImports brokenFile = .error (.syntaxError line) := by
  let p : Name := ⟨[0x70], by decide, by decide⟩
  have hfile : brokenFile <+: file p accentedBlock := by decide +kernel
  have hopen : untilOpen p <+: brokenFile := by decide +kernel
  have hclosed : ¬ untilClosed p accentedBlock <+: brokenFile := by decide +kernel
  obtain ⟨line, hline, -⟩ := truncated_block_unknown p accentedBlock hfile hopen hclosed
  exact ⟨p, hfile, hopen, hclosed, line, hline⟩

end ImportGroups
