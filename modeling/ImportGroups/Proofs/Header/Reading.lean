import ImportGroups.Proofs.Header.Blocks
import ImportGroups.Source.Imports

/-!
How a header is read.

Behind every line break of a header the column is about to become one tree of all items so far. This
is what an import declaration starts from and what it ends with.
-/

namespace ImportGroups.Source

open Text (Bytes)
open Header (Blanks LineBreak Spec Block Declaration importBytes packageBytes)

variable {start : Mark} {k k' : Column} {n : Nat}

/-- Nothing but white space stands between the marks. -/
def Mark.Before (m m' : Mark) : Prop :=
  ∃ w, (∀ b ∈ w, isBlankByte b = true) ∧ m.rest = w ++ m'.rest ∧ m.past w = m'

/-- The tree shows the events, and the items in it that belong to no header start at the spots. -/
structure Tree.Holds (t : Tree) (os : List Spot) (es : List Event) : Prop where
  covers : ∃ a b, t.Covers a b es
  others : t.others = os

theorem Tree.Covers.holds {t : Tree} {a b : Mark} {es : List Event} (h : t.Covers a b es)
    (hv : t.isVisible = true) (hi : t.isHeaderItem = true) : t.Holds [] es :=
  ⟨⟨a, b, h⟩, others_of_headerItem hv hi⟩

theorem Tree.holds_newline (m : Mark) (w text : Bytes) : (m.token .newline w text).Holds [] [] :=
  ⟨⟨_, _, covers_token _ _ _ _⟩, others_of_hidden rfl⟩

/-- The items so far are about to become one tree, which holds the spots and the events. -/
structure Gathered (start : Mark) (k : Column) (os : List Spot) (es : List Event) : Prop where
  state : k.state = 17
  forms : ∃ n items, n ≤ 2 ∧ items.Holds os es ∧
    ∀ t ∈ itemStarts, Forms start t n k [(7, items)]
  pos : 0 < (k.mark start).offset

theorem forms_fileItems (start : Mark) (k : Column) {s s' : State} {t u : Tree} {os ps : List Spot}
    {es fs : List Event} (hs : s ∈ [17, 24]) (ht : t.Holds os es) (hu : u.Holds ps fs) :
    ∃ v : Tree, v.Holds (os ++ ps) (es ++ fs) ∧ ∀ symbol ∈ itemStarts,
      Forms start symbol 1 ((s, u) :: (s', t) :: k)
        ((Automaton.afterPhrase k.state .fileItems, v) :: k) := by
  have hentry : ∀ s ∈ [17, 24],
      (s, itemStarts, ⟨.fileItems, 2, 0⟩) ∈ Automaton.ruleEntries := by decide
  obtain ⟨a, b, hcovers⟩ := ht.covers
  obtain ⟨c, d, hcovers'⟩ := hu.covers
  refine ⟨.formed .fileItems [t, u] (k.mark start), ⟨⟨a, d, ?_⟩, ?_⟩, fun symbol hsymbol => ?_⟩
  · exact Tree.covers_formed_plain (.cons hcovers (.one hcovers')) (by decide)
  · rw [Tree.others_of_hidden rfl]
    show [t, u].flatMap Tree.others = os ++ ps
    simp [ht.others, hu.others]
  · exact .one [(s, u), (s', t)] (Automaton.rule_entry (hentry s hs) hsymbol)
      (by simp [Column.Plain, hcovers.extra, hcovers'.extra]) (by simp)

theorem afterPhrase_fileItems : Automaton.afterPhrase 1 .fileItems = 7 ∧
    Automaton.afterPhrase 7 .fileItems = 24 :=
  ⟨Automaton.phrase_entry (by decide), Automaton.phrase_entry (by decide)⟩

theorem Closes.reads_lineBreak {s : State} {item : Tree} {w : LineBreak} {more : Bytes}
    (h : Closes start n k ((s, item) :: k')) (hn : n ≤ 20) (hs : s ∈ [5, 23, 46])
    (hpos : 0 < (k.mark start).offset) (hrest : (k.mark start).rest = w.bytes ++ more)
    (hmore : ∀ b ∈ more.head?, b ≠ lineFeed) :
    ∃ feed, Reads start 1 k ((17, feed) :: (s, item) :: k') ∧ feed.Holds [] [] ∧
      feed.stop.Before ((k.mark start).past w.bytes) := by
  have hentry : ∀ s ∈ [5, 23, 46], (s, .newline, 17) ∈ Automaton.shiftEntries := by decide
  obtain ⟨pre, lines, post, hbroken⟩ := exists_broken w.breaks
  obtain ⟨hreads, hin, hat⟩ :=
    h.reads_newline hn hbroken hrest hpos hmore (Automaton.shift_entry (hentry s hs))
  refine ⟨_, hreads, Tree.holds_newline _ _ _, post, hbroken.behind, ?_, hat⟩
  rw [hin, Mark.rest_past hrest]

theorem gathered_first {s : State} {item feed : Tree} {os ps : List Spot} {es fs : List Event}
    (hitem : item.Holds os es) (hfeed : feed.Holds ps fs) (hpos : 0 < feed.stop.offset) :
    Gathered start [(17, feed), (s, item)] (os ++ ps) (es ++ fs) := by
  obtain ⟨v, hv, hforms⟩ := forms_fileItems start [] (by decide : 17 ∈ [17, 24]) hitem hfeed
  rw [show Column.state [] = 1 from rfl, afterPhrase_fileItems.1] at hforms
  exact ⟨rfl, ⟨1, v, by decide, hv, hforms⟩, hpos⟩

theorem gathered_next {s : State} {item items feed : Tree} {os ps qs : List Spot}
    {es fs gs : List Event} (hitems : items.Holds os es) (hitem : item.Holds ps fs)
    (hfeed : feed.Holds qs gs) (hpos : 0 < feed.stop.offset) :
    Gathered start [(17, feed), (s, item), (7, items)] (os ++ (ps ++ qs)) (es ++ (fs ++ gs)) := by
  obtain ⟨v, hv, hvforms⟩ :=
    forms_fileItems start [(7, items)] (by decide : 17 ∈ [17, 24]) hitem hfeed
  rw [Column.state_cons, afterPhrase_fileItems.2] at hvforms
  obtain ⟨u, hu, huforms⟩ := forms_fileItems start [] (by decide : 24 ∈ [17, 24]) hitems hv
  rw [show Column.state [] = 1 from rfl, afterPhrase_fileItems.1] at huforms
  exact ⟨rfl, ⟨1 + 1, u, by decide, hu, fun t ht => (hvforms t ht).trans (huforms t ht)⟩, hpos⟩

theorem Closes.gathers_first {item : Tree} {w : LineBreak} {more : Bytes} {os : List Spot}
    {es : List Event} (h : Closes start n k [(5, item)]) (hn : n ≤ 20)
    (hitem : item.Holds os es) (hpos : 0 < (k.mark start).offset)
    (hrest : (k.mark start).rest = w.bytes ++ more) (hmore : ∀ b ∈ more.head?, b ≠ lineFeed) :
    ∃ k₁, Reads start 1 k k₁ ∧ Gathered start k₁ os es ∧
      (k₁.mark start).Before ((k.mark start).past w.bytes) := by
  obtain ⟨feed, hline, hfeed, hat⟩ := h.reads_lineBreak hn (by decide) hpos hrest hmore
  have hle := hline.le_offset
  rw [Column.mark_cons] at hle
  exact ⟨_, hline, by simpa using gathered_first hitem hfeed (by omega), hat⟩

theorem Closes.gathers {s : State} {item items : Tree} {w : LineBreak} {more : Bytes}
    {os ps : List Spot} {es fs : List Event}
    (h : Closes start n k [(s, item), (7, items)]) (hn : n ≤ 20) (hs : s ∈ [23, 46])
    (hitems : items.Holds os es) (hitem : item.Holds ps fs) (hpos : 0 < (k.mark start).offset)
    (hrest : (k.mark start).rest = w.bytes ++ more) (hmore : ∀ b ∈ more.head?, b ≠ lineFeed) :
    ∃ k₁, Reads start 1 k k₁ ∧ Gathered start k₁ (os ++ ps) (es ++ fs) ∧
      (k₁.mark start).Before ((k.mark start).past w.bytes) := by
  obtain ⟨feed, hline, hfeed, hat⟩ :=
    h.reads_lineBreak hn (List.mem_cons_of_mem 5 hs) hpos hrest hmore
  have hle := hline.le_offset
  rw [Column.mark_cons] at hle
  exact ⟨_, hline, by simpa using gathered_next hitems hitem hfeed (by omega), hat⟩

theorem readToken_itemWord {w word more : Bytes} (hk : k.state ∈ [1, 17])
    (hrest : (k.mark start).rest = w ++ (word ++ more))
    (hbom : (k.mark start).skipByteOrderMark = k.mark start)
    (hw : ∀ b ∈ w, isBlankByte b = true) (hword : isWord word = true)
    (hmore : ∀ b ∈ more.head?, isWordEnd b = true) :
    ∃ isKeyword, readToken k.state (k.mark start) =
      ((k.mark start).token (wordSymbol k.state word) w word, isKeyword) := by
  have hentry : ∀ s ∈ [1, 17], (s, 1) ∈ Automaton.modeEntries := by decide
  have hmode := Automaton.mode_entry (hentry _ hk)
  have hset : (modeSymbols 1).contains .identifier = true := by decide
  refine readToken_word hrest hbom ?_ ?_ ?_ hword hmore
  · rw [hmode]
    exact tightSymbolAt?_eq_none (by decide) _
  · rw [hmode, hset]
  · rw [hmode]
    exact fun b hb => (blankIn_eq (by decide) b).trans (hw b hb)

theorem Gathered.reads_word {os : List Spot} {es : List Event} {m : Mark} {t : Symbol}
    {target : State} {word more : Bytes} (h : Gathered start k os es)
    (hat : (k.mark start).Before m) (hrest : m.rest = word ++ more) (hword : isWord word = true)
    (hmore : ∀ b ∈ more.head?, isWordEnd b = true) (hsymbol : Symbol.ofWord? word = some t)
    (ht : t ∈ itemStarts) (hshift : Automaton.actions 7 t = [.shift target]) :
    ∃ items token : Tree, items.Holds os es ∧ token.Covers m (m.past word) [] ∧
      Reads start 1 k [(target, token), (7, items)] := by
  obtain ⟨n, items, hn, hitems, hforms⟩ := h.forms
  obtain ⟨w, hw, hbefore, hm⟩ := hat
  rw [hrest] at hbefore
  obtain ⟨isKeyword, hread⟩ := readToken_itemWord (by simp [h.state]) hbefore
    (Mark.skipByteOrderMark_of_pos h.pos) hw hword hmore
  have hrule : Automaton.actions 17 t = [.reduce ⟨.fileItems, 2, 0⟩] :=
    Automaton.rule_entry (by decide) ht
  rw [h.state, wordSymbol_of_actions hsymbol hrule] at hread
  have hne : word ≠ [] := by
    rintro rfl
    simp [isWord] at hword
  refine ⟨items, _, hitems, ?_, .one (.of_forms ⟨_, by rw [h.state]; exact hread⟩ rfl
    (hforms t ht) hshift) (by omega) (Mark.offset_lt_token hbefore hne)⟩
  rw [← hm]
  exact Tree.covers_token _ _ _ _

def innerEvents (m : Mark) : Declaration → List Event
  | .single gap s => [specEvent ((m.past importBytes).past gap.bytes) s]
  | .empty _ _ => []
  | .block gap b => blockEvents ((m.past importBytes).past gap.bytes) b

def declEvents (m : Mark) (d : Declaration) : List Event :=
  .importDeclaration m.toSpot (m.past d.bytes).toSpot :: innerEvents m d

theorem reads_inside {d : Declaration} {more : Bytes} {m : Mark} (hk : k.state = 3)
    (hm : k.mark start = m.past importBytes)
    (hrest : (k.mark start).rest = d.inside ++ more) (hpos : 0 < (k.mark start).offset) :
    ∃ n l k₁ a tree, Reads start l k k₁ ∧ n ≤ 2 ∧ Pending start terminators n k₁ ((15, tree) :: k) ∧
      tree.Covers a (m.past d.bytes) (innerEvents m d) := by
  cases d with
  | single gap s =>
    have hspec : (k.mark start).rest = gap.bytes ++ (s.bytes ++ more) := by
      simpa [Declaration.inside] using hrest
    have hslot : k.state = Slot.alone.state := hk
    obtain ⟨l, k₁, tree, hreads, hpending, htree⟩ := reads_spec hslot hspec hpos gap.blank
    refine ⟨2, l, k₁, (m.past importBytes).past gap.bytes, tree, hreads, by decide,
      hpending, ?_⟩
    rw [hm] at htree
    simpa [Declaration.bytes, Declaration.inside, Mark.past_past, innerEvents] using htree
  | empty gap inner =>
    have hblock : (k.mark start).rest = gap.bytes ++
        (Header.leftParenByte :: (inner.bytes ++ [Header.rightParenByte]) ++ more) := by
      simpa [Declaration.inside] using hrest
    obtain ⟨l, k₁, tree, hreads, hpending, htree⟩ := reads_emptyBlock hk hblock hpos
    refine ⟨1, l, k₁, (m.past importBytes).past gap.bytes, tree, hreads, by decide,
      hpending, ?_⟩
    rw [hm] at htree
    simpa [Declaration.bytes, Declaration.inside, Mark.past_past, innerEvents] using htree
  | block gap b =>
    have hblock : (k.mark start).rest = gap.bytes ++ (b.bytes ++ more) := by
      simpa [Declaration.inside] using hrest
    obtain ⟨l, k₁, tree, hreads, hpending, htree⟩ := reads_block hk hblock hpos
    refine ⟨1, l, k₁, (m.past importBytes).past gap.bytes, tree, hreads, by decide,
      hpending, ?_⟩
    rw [hm] at htree
    simpa [Declaration.bytes, Declaration.inside, Mark.past_past, innerEvents] using htree

theorem Gathered.reads_import {os : List Spot} {es : List Event} {m : Mark} {d : Declaration}
    {more : Bytes} (h : Gathered start k os es) (hat : (k.mark start).Before m)
    (hrest : m.rest = d.bytes ++ more) :
    ∃ l n k₁ items decl, Reads start l k k₁ ∧ n ≤ 3 ∧
      Pending start terminators n k₁ [(23, decl), (7, items)] ∧ items.Holds os es ∧
      decl.Holds [] (declEvents m d) ∧ k₁.mark start = m.past d.bytes ∧
      0 < (k₁.mark start).offset := by
  have hshift : Automaton.actions 7 .importWord = [.shift 3] := Automaton.shift_entry (by decide)
  have hentry : (15, terminators, ⟨.importDeclaration, 2, 0⟩) ∈ Automaton.ruleEntries := by decide
  have hafter : Automaton.afterPhrase 7 .importDeclaration = 23 :=
    Automaton.phrase_entry (by decide)
  have hword : m.rest = importBytes ++ (d.inside ++ more) := by
    simpa [Declaration.bytes] using hrest
  obtain ⟨items, word, hitems, hcovers, htakes⟩ :=
    h.reads_word hat hword Header.isWord_importBytes d.head?_inside (by decide) (by decide) hshift
  have hle := htakes.le_offset
  have hstop : Column.mark start [(3, word), (7, items)] = m.past importBytes := hcovers.stop
  have hpos := h.pos
  obtain ⟨n, l, k₁, c, tree, hreads, hn, hinside, htree⟩ :=
    reads_inside rfl hstop (by rw [hstop]; exact Mark.rest_past hword) (by omega)
  let decl := Tree.formed .importDeclaration [word, tree] (Column.mark start [(7, items)])
  have hdecl : decl.Covers m (m.past d.bytes) (declEvents m d) :=
    Tree.covers_formed_clause .importDeclaration (.cons hcovers (.one htree)) rfl
  have hpending : Pending start terminators (n + 1) k₁ [(23, decl), (7, items)] := by
    refine ⟨hinside.mode, fun t ht => (hinside.forms t ht).trans ?_⟩
    rw [← hafter]
    exact .one [(15, tree), (3, word)] (Automaton.rule_entry hentry ht)
      (by simp [Column.Plain, htree.extra, hcovers.extra]) (by simp)
  have hle' := hreads.le_offset
  exact ⟨_, n + 1, k₁, items, decl, htakes.trans hreads, by omega, hpending, hitems,
    hdecl.holds rfl rfl, (hpending.mark (by decide)).symm.trans hdecl.stop, by omega⟩

theorem Gathered.reads_declaration {os : List Spot} {es : List Event} {m : Mark} {d : Declaration}
    {br : LineBreak} {more : Bytes} (h : Gathered start k os es) (hat : (k.mark start).Before m)
    (hrest : m.rest = d.bytes ++ (br.bytes ++ more)) (hmore : ∀ b ∈ more.head?, b ≠ lineFeed) :
    ∃ l k₁, Reads start l k k₁ ∧ Gathered start k₁ os (es ++ declEvents m d) ∧
      (k₁.mark start).Before ((m.past d.bytes).past br.bytes) := by
  obtain ⟨l, n, k₁, items, decl, hreads, hn, hpending, hitems, hdecl, hmark, hpos⟩ :=
    h.reads_import hat hrest
  have hrest₁ : (k₁.mark start).rest = br.bytes ++ more := by rw [hmark, Mark.rest_past hrest]
  obtain ⟨k₂, hline, hgathered, hbefore⟩ :=
    (hpending.closes (by decide)).gathers (by omega) (by decide) hitems hdecl hpos hrest₁ hmore
  rw [hmark] at hbefore
  exact ⟨_, k₂, hreads.trans hline, by simpa using hgathered, hbefore⟩

def declsEvents (m : Mark) : List (Declaration × LineBreak) → List Event
  | [] => []
  | (d, br) :: decls => declEvents m d ++ declsEvents ((m.past d.bytes).past br.bytes) decls

theorem head?_word {word : Bytes} (hword : isWord word = true) (more : Bytes) :
    ∀ b ∈ (word ++ more).head?, b ≠ lineFeed := by
  intro b hb
  cases word with
  | nil => simp [isWord] at hword
  | cons c cs =>
    obtain rfl : c = b := by simpa using hb
    simp only [isWord, Bool.and_eq_true] at hword
    rintro rfl
    exact absurd hword.1 (by decide)

theorem head?_declaration (d : Declaration) (more : Bytes) :
    ∀ b ∈ (d.bytes ++ more).head?, b ≠ lineFeed := by
  rw [Declaration.bytes, List.append_assoc]
  exact head?_word Header.isWord_importBytes _

theorem head?_declBytes {decls : List (Declaration × LineBreak)} {more : Bytes}
    (hmore : ∀ b ∈ more.head?, b ≠ lineFeed) :
    ∀ b ∈ (Header.declBytes decls ++ more).head?, b ≠ lineFeed := by
  cases decls with
  | nil => exact hmore
  | cons x decls =>
    rw [Header.declBytes, List.flatMap_cons, List.append_assoc, List.append_assoc]
    exact head?_declaration x.1 _

theorem Gathered.reads_declarations {os : List Spot} {es : List Event} {m : Mark}
    {decls : List (Declaration × LineBreak)} {more : Bytes} (h : Gathered start k os es)
    (hat : (k.mark start).Before m) (hrest : m.rest = Header.declBytes decls ++ more)
    (hmore : ∀ b ∈ more.head?, b ≠ lineFeed) :
    ∃ l k₁, Reads start l k k₁ ∧ Gathered start k₁ os (es ++ declsEvents m decls) ∧
      (k₁.mark start).Before (m.past (Header.declBytes decls)) := by
  induction decls generalizing k es m with
  | nil => exact ⟨0, k, .refl k, by simpa [declsEvents] using h, hat⟩
  | cons x decls ih =>
    obtain ⟨d, br⟩ := x
    have hbytes : Header.declBytes ((d, br) :: decls) =
        d.bytes ++ (br.bytes ++ Header.declBytes decls) := by
      simp [Header.declBytes]
    have hrest₁ : m.rest = d.bytes ++ (br.bytes ++ (Header.declBytes decls ++ more)) := by
      simpa [hbytes] using hrest
    obtain ⟨l, k₁, hreads, hgathered, hat₁⟩ :=
      h.reads_declaration hat hrest₁ (head?_declBytes hmore)
    obtain ⟨l', k₂, hreads', hgathered', hat₂⟩ :=
      ih hgathered hat₁ (Mark.rest_past (Mark.rest_past hrest₁))
    refine ⟨_, k₂, hreads.trans hreads', by simpa [declsEvents] using hgathered', ?_⟩
    rwa [hbytes, ← Mark.past_past, ← Mark.past_past]

theorem wordSymbol_name {s : State} (hs : s ∈ namingStates) (name : Header.Name) :
    wordSymbol s name.bytes = .identifier := by
  unfold wordSymbol
  cases hword : Symbol.ofWord? name.bytes with
  | none => rfl
  | some t =>
    have hfree : ∀ t ∈ [Symbol.underscore, .makeWord, .newWord], t.isReserved = false := by decide
    have ht := Name.ofWord?_mem hword
    simp [Automaton.admits_naming hs ht, hfree t ht]

theorem head?_lineBreak (w : LineBreak) (more : Bytes) :
    ∀ b ∈ (w.bytes ++ more).head?, isBlankByte b = true := by
  intro b hb
  cases hw : w.bytes with
  | nil => exact absurd w.breaks (by simp [hw])
  | cons c cs =>
    obtain rfl : c = b := by simpa [hw] using hb
    exact w.blank c (by simp [hw])

theorem head?_space (gap : Header.Space) (more : Bytes) :
    ∀ b ∈ (gap.bytes ++ more).head?, isBlankByte b = true := by
  intro b hb
  cases hg : gap.bytes with
  | nil => exact absurd hg gap.nonempty
  | cons c cs =>
    obtain rfl : c = b := by simpa [hg] using hb
    exact gap.blank c (by simp [hg])

theorem reads_introduced {gap : Header.Space} {name : Header.Name} {more : Bytes} {target : State}
    (hk : k.state ∈ namingStates) (hpos : 0 < (k.mark start).offset)
    (hrest : (k.mark start).rest = gap.bytes ++ (name.bytes ++ more))
    (hmore : ∀ b ∈ more.head?, isWordEnd b = true)
    (hshift : Automaton.actions k.state .identifier = [.shift target]) :
    ∃ token : Tree, token.Covers ((k.mark start).past gap.bytes)
        ((k.mark start).past (gap.bytes ++ name.bytes)) [] ∧
      Reads start 1 k ((target, token) :: k) := by
  have hentry : ∀ s ∈ namingStates, (s, 0) ∈ Automaton.modeEntries := by decide
  have hmode := Automaton.mode_entry (hentry _ hk)
  have htight : tightSymbolAt? (modeSymbols (Automaton.mode k.state)) (k.mark start).rest = none := by
    rw [hmode, hrest]
    have hhead := head?_space gap (name.bytes ++ more)
    cases hg : gap.bytes ++ (name.bytes ++ more) with
    | nil => simp [name.ne_nil] at hg
    | cons b bs =>
      have hb : isBlankByte b = true := hhead b (by simp [hg])
      apply tightSymbolAt?_loose
      · rintro rfl
        exact absurd hb (by decide)
      · rintro rfl
        exact absurd hb (by decide)
  have hblank : ∀ b ∈ gap.bytes, blankIn (Automaton.mode k.state) b = true := by
    rw [hmode]
    exact fun b hb => (blankIn_eq (by decide) b).trans (gap.blank b hb)
  obtain ⟨_, hread⟩ := readToken_word hrest (Mark.skipByteOrderMark_of_pos hpos) htight
    (by rw [hmode]; decide) hblank name.word hmore
  rw [wordSymbol_name hk] at hread
  refine ⟨_, ?_, .one (.of_forms ⟨_, hread⟩ rfl (.refl k) hshift) (by decide)
    (Mark.offset_lt_token hrest name.ne_nil)⟩
  rw [← Mark.past_past]
  exact Tree.covers_token _ _ _ _

def packageEvent (m : Mark) (gap : Header.Space) (name : Header.Name) : Event :=
  .packageClause m.toSpot (m.past (packageBytes ++ (gap.bytes ++ name.bytes))).toSpot

theorem reads_packageName (start : Mark) (k : Column) {word : Tree} {m : Mark} {gap : Header.Space}
    {name : Header.Name} {more : Bytes} (hword : word.Covers m (m.past packageBytes) [])
    (hpos : 0 < (m.past packageBytes).offset)
    (hrest : m.rest = packageBytes ++ (gap.bytes ++ (name.bytes ++ more)))
    (hmore : ∀ b ∈ more.head?, isWordEnd b = true) :
    ∃ k₁ clause, Reads start 1 ((2, word) :: k) k₁ ∧
      Pending start terminators 1 k₁
        ((Automaton.afterPhrase k.state .packageClause, clause) :: k) ∧
      clause.Holds [] [packageEvent m gap name] ∧
      k₁.mark start = m.past (packageBytes ++ (gap.bytes ++ name.bytes)) ∧ clause.start = m := by
  have hshift : Automaton.actions 2 .identifier = [.shift 8] := Automaton.shift_entry (by decide)
  have hmode : Automaton.mode 8 = 2 := Automaton.mode_entry (by decide)
  have hentry : (8, terminators, ⟨.packageClause, 2, 0⟩) ∈ Automaton.ruleEntries := by decide
  have hmark : Column.mark start ((2, word) :: k) = m.past packageBytes := hword.stop
  obtain ⟨title, htitle, hreads⟩ := reads_introduced (k := (2, word) :: k) (by simp [namingStates])
    (by rw [hmark]; exact hpos) (by rw [hmark]; exact Mark.rest_past hrest) hmore hshift
  rw [hmark, Mark.past_past] at htitle
  let clause := Tree.formed .packageClause [word, title] (k.mark start)
  have hclause : clause.Covers m (m.past (packageBytes ++ (gap.bytes ++ name.bytes)))
      [packageEvent m gap name] :=
    Tree.covers_formed_clause .packageClause (.cons hword (.one htitle)) rfl
  refine ⟨_, clause, hreads, ⟨by rw [Column.state_cons, hmode]; decide, fun t ht => ?_⟩,
    hclause.holds rfl rfl, htitle.stop, hclause.start⟩
  exact .one [(8, title), (2, word)] (Automaton.rule_entry hentry ht)
    (by simp [Column.Plain, htitle.extra, hword.extra]) (by simp)

def headerEvents (m : Mark) (h : Header) : List Event :=
  packageEvent (m.past h.lead.bytes) h.gap h.name :: declsEvents (m.past h.clauseBytes) h.decls

theorem skipByteOrderMark_lead {lead : Blanks} {more : Bytes}
    (hrest : start.rest = lead.bytes ++ (packageBytes ++ more)) :
    start.skipByteOrderMark = start := by
  have hp : packageBytes = 0x70 :: packageBytes.tail := rfl
  cases hl : lead.bytes with
  | nil =>
    rw [hl, hp] at hrest
    exact Mark.skipByteOrderMark_of_head hrest (by decide)
  | cons b bs =>
    rw [hl] at hrest
    refine Mark.skipByteOrderMark_of_head hrest ?_
    rintro rfl
    exact absurd (lead.blank 0xEF (by simp [hl])) (by decide)

theorem reads_clause {lead : Blanks} {gap : Header.Space} {name : Header.Name} {more : Bytes}
    (hrest : start.rest = lead.bytes ++ (packageBytes ++ (gap.bytes ++ (name.bytes ++ more))))
    (hmore : ∀ b ∈ more.head?, isWordEnd b = true) :
    ∃ l k clause, Reads start l [] k ∧ Pending start terminators 1 k [(5, clause)] ∧
      clause.Holds [] [packageEvent (start.past lead.bytes) gap name] ∧
      k.mark start = start.past (lead.bytes ++ (packageBytes ++ (gap.bytes ++ name.bytes))) ∧
      0 < (k.mark start).offset ∧ clause.start = start.past lead.bytes := by
  have hshift : Automaton.actions 1 .packageWord = [.shift 2] := Automaton.shift_entry (by decide)
  have hafter : Automaton.afterPhrase 1 .packageClause = 5 := Automaton.phrase_entry (by decide)
  let m := start.past lead.bytes
  have hrest₀ : (Column.mark start []).rest = _ := hrest
  obtain ⟨_, hread⟩ := readToken_itemWord (by decide) hrest₀ (skipByteOrderMark_lead hrest)
    lead.blank Header.isWord_packageBytes fun b hb => isWordEnd_of_isBlankByte (head?_space gap _ b hb)
  let word := start.token .packageWord lead.bytes packageBytes
  have htakes : Takes start word 0 [] [(2, word)] :=
    .of_forms ⟨_, by rw [hread, show Column.state [] = 1 from rfl,
      wordSymbol_of_actions (by decide) hshift]; rfl⟩ rfl (.refl []) hshift
  have hlt : start.offset < word.stop.offset := Mark.offset_lt_token hrest (by decide)
  obtain ⟨k, clause, hname, hpending, hholds, hmark, hstart⟩ := reads_packageName start []
    (Tree.covers_token _ _ _ _ : word.Covers m (m.past packageBytes) []) (Nat.zero_lt_of_lt hlt)
    (Mark.rest_past hrest) hmore
  rw [show Column.state [] = 1 from rfl, hafter] at hpending
  have hle := hname.le_offset
  refine ⟨_, k, clause, (Reads.one htakes (by decide) hlt).trans hname, hpending, hholds, ?_,
    Nat.zero_lt_of_lt (Nat.lt_of_lt_of_le hlt (Nat.le_of_add_right_le hle)), hstart⟩
  rw [hmark, Mark.past_past]

/-- Behind a header its items are about to become one tree. -/
theorem reads_header {h : Header} {more : Bytes} (hrest : start.rest = h.bytes ++ more)
    (hmore : ∀ b ∈ more.head?, b ≠ lineFeed) :
    ∃ l k, Reads start l [] k ∧ Gathered start k [] (headerEvents start h) ∧
      (k.mark start).Before (start.past h.bytes) := by
  let tail := Header.declBytes h.decls ++ more
  have hclause : start.rest = h.lead.bytes ++ (packageBytes ++ (h.gap.bytes ++ (h.name.bytes ++
      (h.stop.bytes ++ tail)))) := by
    simpa [Header.bytes, Header.clauseBytes, tail] using hrest
  obtain ⟨l, k, clause, hreads, hpending, hholds, hmark, hpos, -⟩ := reads_clause hclause
    fun b hb => isWordEnd_of_isBlankByte (head?_lineBreak h.stop tail b hb)
  have hrest₁ : (k.mark start).rest = h.stop.bytes ++ tail := by
    rw [hmark]
    apply Mark.rest_past
    simpa using hclause
  obtain ⟨k₁, hline, hgathered, hat⟩ := (hpending.closes (by decide)).gathers_first
    (by decide) hholds hpos hrest₁ (head?_declBytes hmore)
  have hstop : (k.mark start).past h.stop.bytes = start.past h.clauseBytes := by
    rw [hmark]
    simp [Header.clauseBytes, Mark.past_past]
  rw [hstop] at hat
  have hrest₂ : (start.past h.clauseBytes).rest = Header.declBytes h.decls ++ more := by
    rw [← hstop, Mark.rest_past hrest₁]
  obtain ⟨l', k₂, hdecls, hgathered', hat'⟩ := hgathered.reads_declarations hat hrest₂ hmore
  refine ⟨_, k₂, hreads.trans (hline.trans hdecls), hgathered', ?_⟩
  rwa [Mark.past_past] at hat'

/-- Nothing is left but white space. -/
theorem Gathered.ends {os : List Spot} {es : List Event} (h : Gathered start k os es)
    (hrest : ∀ b ∈ (k.mark start).rest, isBlankByte b = true) :
    ∃ token n k' tree, Ends start token n k k' ∧ n ≤ 20 ∧
      Contest.wholeTree token.stop (k'.trees ++ [token]) = some tree ∧
      tree.label = .phrase .sourceFile ∧ tree.events = os.map Event.otherItem ++ es := by
  obtain ⟨n, items, hn, hitems, hforms⟩ := h.forms
  obtain ⟨a, b, hcovers⟩ := hitems.covers
  have hmode : Automaton.mode 17 = 1 := Automaton.mode_entry (by decide)
  have hrule : Automaton.actions 7 .endOfFile = [.reduce ⟨.sourceFile, 1, 0⟩] :=
    Automaton.rule_entry (by decide) (List.mem_singleton_self _)
  have hafter : Automaton.afterPhrase 1 .sourceFile = Automaton.final :=
    Automaton.phrase_entry (by decide)
  have hread : readToken k.state (k.mark start) =
      ((k.mark start).token .endOfFile (k.mark start).rest [], false) := by
    refine readToken_end rfl (Mark.skipByteOrderMark_of_pos h.pos) ?_ ?_ ?_
    · rw [h.state, hmode]
      exact tightSymbolAt?_eq_none (by decide) _
    · rw [h.state, hmode]
      decide
    · rw [h.state, hmode]
      exact fun b hb => (blankIn_eq (by decide) b).trans (hrest b hb)
  let token := (k.mark start).token .endOfFile (k.mark start).rest []
  let whole := Tree.formed .sourceFile [items] start
  have hforms' : Forms start .endOfFile (n + 1) k [(Automaton.final, whole)] := by
    refine (hforms _ (by decide)).trans ?_
    rw [← hafter]
    exact .one [(7, items)] hrule (by simp [Column.Plain, hcovers.extra]) (by simp)
  have htoken : token.Covers _ token.stop [] := Tree.covers_token _ _ _ _
  refine ⟨token, n + 1, _, .node (.phrase .sourceFile) [items, token] token.stop,
    ⟨⟨_, hread⟩, rfl, hforms', rfl⟩, by omega, ?_, rfl, ?_⟩
  · have hend : token.label = .token .endOfFile := rfl
    have hwhole : whole.extra = false ∧ whole.label = .phrase .sourceFile ∧
        whole.children = [items] := ⟨rfl, rfl, rfl⟩
    simp [Contest.wholeTree, hend, hwhole]
  · have hlast : token.others = [] := Tree.others_of_hidden rfl
    have htree : Tree.Counted (.node (.phrase .sourceFile) [items, token] token.stop) :=
      Tree.counted_node (by simp [hcovers.counted, htoken.counted])
    rw [htree.events, show (Tree.node _ _ _).children = [items, token] from rfl, Tree.outline_eq]
    show _ ++ ([] ++ [items, token].flatMap Tree.outline) = _
    simp [hcovers.outline, htoken.outline, hitems.others, hlast]

theorem Gathered.straight {source : Bytes} {l : Nat} {os : List Spot} {es : List Event}
    (h : Gathered (.ofSource source) k os es) (hreads : Reads (.ofSource source) l [] k)
    (hat : (k.mark (.ofSource source)).Before ((Mark.ofSource source).past source)) :
    ∃ tree, Straight source tree ∧ tree.events = os.map Event.otherItem ++ es := by
  have hall : (Mark.ofSource source).rest = source ++ [] := (List.append_nil source).symm
  obtain ⟨w, hw, hin, hend⟩ := hat
  rw [Mark.rest_past hall] at hin
  obtain ⟨token, n, k', tree, hends, hn, htree, hlabel, hevents⟩ :=
    h.ends (by rw [hin, List.append_nil]; exact hw)
  have hbound : (k.mark (.ofSource source)).offset ≤ source.length := by
    have hoffset := Mark.offset_past hin
    rw [hend, Mark.offset_past hall, show (Mark.ofSource source).offset = 0 from rfl] at hoffset
    omega
  exact ⟨tree, .intro hreads hends hn hbound htree hlabel, hevents⟩

theorem Gathered.events_readSource {source : Bytes} {l : Nat} {os : List Spot} {es : List Event}
    (h : Gathered (.ofSource source) k os es) (hreads : Reads (.ofSource source) l [] k)
    (hat : (k.mark (.ofSource source)).Before ((Mark.ofSource source).past source)) :
    (readSource source).events = os.map Event.otherItem ++ es := by
  obtain ⟨tree, htree, hevents⟩ := h.straight hreads hat
  rw [readSource, htree.readTree, hevents]

end ImportGroups.Source
