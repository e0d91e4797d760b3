import ImportGroups.Proofs.LeadingComment.Moving
import ImportGroups.Proofs.Reading.Lexing
import ImportGroups.Proofs.Reading.Outline
import ImportGroups.Proofs.Reading.Single
import ImportGroups.Proofs.Reading.Tables

/-!
Readings that stand further down.

A reader looks at the labels of trees and at distances between marks, so what it reads behind the first
token does not depend on how far down it stands. The line feed before a source that stands further down
is a blank before its first token. That token knows of a longer blank, and nothing else does.
-/

namespace ImportGroups.Source

open Text (Bytes)

def Mark.down (n : Nat) (m : Mark) : Mark := ⟨m.toSpot.down n, m.rest⟩

namespace Mark

variable (n : Nat) (m : Mark)

@[simp] theorem toSpot_down : (m.down n).toSpot = m.toSpot.down n := rfl

@[simp] theorem rest_down : (m.down n).rest = m.rest := rfl

@[simp] theorem offset_down : (m.down n).offset = m.offset + n := rfl

theorem step_down : (m.down n).step = m.step.down n := by
  unfold step
  cases hrest : m.rest with
  | nil => simp [hrest]
  | cons b bs =>
    simp only [hrest, down, Spot.down, Nat.add_right_comm m.offset n 1]
    split <;> rfl

@[simp] theorem advance_down (k : Nat) : (m.down n).advance k = (m.advance k).down n := by
  induction k generalizing m with
  | zero => rfl
  | succ k ih => rw [advance, advance, step_down, ih]

@[simp] theorem skipBlanks_down (lines : Bool) :
    (m.down n).skipBlanks lines = (m.skipBlanks lines).down n :=
  advance_down n m _

end Mark

/-- An offset of a source that stands `n` bytes further down. The blanks at its beginning start with
the last one of these. -/
def lowerOffset (n a : Nat) : Nat := if a = 0 then n - 1 else a + n

theorem lowerOffset_of_pos {n a : Nat} (h : 0 < a) : lowerOffset n a = a + n := if_neg (by omega)

namespace Tree

def lower (n : Nat) (t : Tree) : Tree :=
  { t with
    children := t.children.attach.map fun c => c.1.lower n
    lead := lowerOffset n t.lead
    start := t.start.down n
    stop := t.stop.down n }
termination_by sizeOf t
decreasing_by exact sizeOf_lt_of_mem_children c.2

variable (n : Nat)

theorem lower_eq (t : Tree) :
    t.lower n =
      { t with children := t.children.map (lower n), lead := lowerOffset n t.lead
               start := t.start.down n, stop := t.stop.down n } := by
  rw [lower]
  simp

section Fields

variable (t : Tree)

@[simp] theorem lower_label : (t.lower n).label = t.label := by rw [lower]

@[simp] theorem lower_children : (t.lower n).children = t.children.map (lower n) := by rw [lower_eq]

@[simp] theorem lower_lead : (t.lower n).lead = lowerOffset n t.lead := by rw [lower]

@[simp] theorem lower_start : (t.lower n).start = t.start.down n := by rw [lower]

@[simp] theorem lower_stop : (t.lower n).stop = t.stop.down n := by rw [lower]

@[simp] theorem lower_extra : (t.lower n).extra = t.extra := by rw [lower]

@[simp] theorem lower_missing : (t.lower n).missing = t.missing := by rw [lower]

@[simp] theorem lower_cost : (t.lower n).cost = t.cost := by rw [lower]

@[simp] theorem lower_rank : (t.lower n).rank = t.rank := by rw [lower]

@[simp] theorem lower_inner : (t.lower n).inner = t.inner := by rw [lower]

@[simp] theorem lower_parts : (t.lower n).parts = t.parts := by rw [lower]

@[simp] theorem lower_size : (t.lower n).size = t.size := by rw [lower]

@[simp] theorem lower_isVisible : (t.lower n).isVisible = t.isVisible := by simp [isVisible]

@[simp] theorem lower_isError : (t.lower n).isError = t.isError := by simp [isError]

@[simp] theorem lower_isUnknown : (t.lower n).isUnknown = t.isUnknown := by simp [isUnknown]

@[simp] theorem lower_shown : (t.lower n).shown = t.shown := by simp [shown]

@[simp] theorem lower_isHeaderItem : (t.lower n).isHeaderItem = t.isHeaderItem := by
  simp [isHeaderItem]

@[simp] theorem lower_isString : (t.lower n).isString = t.isString := by simp [isString]

@[simp] theorem lower_symbol? : (t.lower n).symbol? = t.symbol? := by simp [symbol?]

@[simp] theorem lower_text : (t.lower n).text = t.text := by
  simp only [text, lower_start, lower_stop, Mark.rest_down, Mark.offset_down, Nat.add_sub_add_right]

theorem lower_withRank (rank : Int) :
    { t.lower n with rank } = ({ t with rank } : Tree).lower n := by
  rw [lower_eq, lower_eq]

theorem lower_withExtra (extra : Bool) :
    { t.lower n with extra } = ({ t with extra } : Tree).lower n := by
  rw [lower_eq, lower_eq]

end Fields

theorem lower_leaf (s : Symbol) (lead : Nat) (start stop : Mark) :
    (leaf s lead start stop).lower n =
      leaf s (lowerOffset n lead) (start.down n) (stop.down n) := by
  rw [lower_eq]
  rfl

theorem foldl_add_lower (ts : List Tree) (sums : Sums) :
    (ts.map (lower n)).foldl Sums.add sums = ts.foldl Sums.add sums := by
  induction ts generalizing sums with
  | nil => rfl
  | cons t ts ih =>
    have hadd : sums.add (t.lower n) = sums.add t := by
      simp [Sums.add, skipCost, shownParts]
    rw [List.map_cons, List.foldl_cons, List.foldl_cons, hadd, ih]

theorem lower_node (p : Phrase) {ts : List Tree} (hne : ts ≠ []) (here here' : Mark) :
    (node (.phrase p) ts here).lower n = node (.phrase p) (ts.map (lower n)) here' := by
  have hfirst := List.head?_eq_some_head hne
  have hlast := List.getLast?_eq_some_getLast hne
  rw [lower_eq, node, node, foldl_add_lower]
  simp [hfirst, hlast, List.getLast?_map]

theorem visibleAmong_lower (fuel : Nat) (ts : List Tree) :
    visibleAmong fuel (ts.map (lower n)) = (visibleAmong fuel ts).map (lower n) := by
  induction fuel generalizing ts with
  | zero => rfl
  | succ fuel ih =>
    cases ts with
    | nil => rfl
    | cons t ts =>
      rw [List.map_cons, visibleAmong, visibleAmong, lower_isVisible, lower_children,
        ← List.map_append, ih, ih]
      split <;> rfl

@[simp] theorem lower_visibleChildren (t : Tree) :
    (t.lower n).visibleChildren = t.visibleChildren.map (lower n) := by
  rw [visibleChildren, visibleChildren, lower_size, lower_children, visibleAmong_lower]

@[simp] theorem lower_isOpenImport (t : Tree) : (t.lower n).isOpenImport = t.isOpenImport := by
  rw [isOpenImport, isOpenImport, lower_visibleChildren, List.head?_map, Option.map_map]
  congr 2
  funext u
  exact lower_label n u

theorem event?_lower (t : Tree) : (t.lower n).event? = t.event?.map (Event.down n) := by
  have hpath : (t.lower n).visibleChildren.reverse.find? isString =
      (t.visibleChildren.reverse.find? isString).map (lower n) := by
    rw [lower_visibleChildren, ← List.map_reverse, List.find?_map]
    congr 2
    funext u
    exact lower_isString n u
  unfold event?
  rw [hpath]
  simp only [lower_isVisible, lower_isError, lower_missing, lower_isOpenImport, lower_label,
    lower_start, lower_stop, Mark.toSpot_down]
  split
  · rfl
  split
  · rfl
  split
  · rfl
  · rfl
  · cases t.visibleChildren.reverse.find? isString with
    | none => rfl
    | some u =>
      simp only [Option.map_some, lower_start, lower_stop, Mark.toSpot_down, lower_text]
      rfl
  · rfl

theorem collectEvents_lower (fuel : Nat) (ts : List Tree) (found : List Event) :
    collectEvents fuel (ts.map (lower n)) (found.map (Event.down n)) =
      (collectEvents fuel ts found).map (Event.down n) := by
  induction fuel generalizing ts found with
  | zero => rfl
  | succ fuel ih =>
    cases ts with
    | nil => rfl
    | cons t ts =>
      rw [List.map_cons, collectEvents, collectEvents, event?_lower, lower_children,
        ← List.map_append]
      cases t.event? with
      | none => exact ih (t.children ++ ts) found
      | some e => exact ih (t.children ++ ts) (e :: found)

/-- A comment before what is in a file shows nothing. -/
theorem events_behind {first : Tree} (hlabel : first.label = .token .comment)
    (hchildren : first.children = []) (hmissing : first.missing = false) (hsize : first.size = 1)
    (ts : List Tree) (here here' : Mark) :
    (node (.phrase .sourceFile) (first :: ts.map (lower n)) here').events =
      (node (.phrase .sourceFile) ts here).events.map (Event.down n) := by
  have hvisible : first.isVisible = true := by rw [isVisible, hlabel]; rfl
  have hitem : first.isHeaderItem = true := by simp [isHeaderItem, hlabel]
  have hevent : first.event? = none := by
    simp [event?, hvisible, isError, hlabel, hmissing]
  have hlower : ∀ us : List Tree, total (us.map (lower n)) = total us := by
    intro us
    induction us with
    | nil => rfl
    | cons u us ih => rw [List.map_cons, total_cons, total_cons, lower_size, ih]
  have hwhole : (node (.phrase .sourceFile) (first :: ts.map (lower n)) here').size =
      total ts + 1 + 1 := by
    show ((first :: ts.map (lower n)).foldl Sums.add {}).size + 1 = _
    rw [foldl_add_size, total_cons, hlower, hsize]
    simp [Nat.add_comm]
  have hplain : (node (.phrase .sourceFile) ts here).size = total ts + 1 := by
    show (ts.foldl Sums.add {}).size + 1 = _
    rw [foldl_add_size]
    simp
  have hroot : ∀ us h, (node (.phrase .sourceFile) us h).event? = none := fun _ _ => rfl
  have hothers : (visibleAmong (total ts + 1 + 1) (first :: ts.map (lower n))).filter
        (fun item => !item.isHeaderItem) =
      ((visibleAmong (total ts + 1) ts).filter fun item => !item.isHeaderItem).map (lower n) := by
    rw [visibleAmong, if_pos hvisible, List.filter_cons, hitem, visibleAmong_lower, List.filter_map]
    simp [Function.comp_def]
  have hfound : collectEvents (total ts + 1 + 1)
        [node (.phrase .sourceFile) (first :: ts.map (lower n)) here'] [] =
      (collectEvents (total ts + 1) [node (.phrase .sourceFile) ts here] []).map (Event.down n) := by
    rw [collectEvents, collectEvents, hroot, hroot]
    show collectEvents (total ts + 1) (first :: (ts.map (lower n) ++ [])) [] =
      (collectEvents (total ts) (ts ++ []) []).map (Event.down n)
    rw [collectEvents, hevent, hchildren, List.append_nil, List.append_nil, List.nil_append]
    exact collectEvents_lower n (total ts) ts []
  unfold events visibleChildren
  rw [hwhole, hplain, hfound]
  show (((visibleAmong (total ts + 1 + 1) (first :: ts.map (lower n))).filter _).map _) ++ _ =
    ((((visibleAmong (total ts + 1) ts).filter _).map _) ++ _).map _
  rw [hothers]
  simp [Function.comp_def, Event.onSpots]

end Tree

def Lexed.down (n : Nat) (l : Lexed) : Lexed := ⟨l.symbol, l.start.down n, l.stop.down n⟩

theorem Mark.lex?_down {n : Nat} {m : Mark} (hm : 0 < m.offset) (set : SymbolSet) :
    (m.down n).lex? set = (m.lex? set).map (Lexed.down n) := by
  have hpos : (m.down n).skipByteOrderMark = m.down n :=
    skipByteOrderMark_of_pos (Nat.lt_of_lt_of_le hm (Nat.le_add_right _ n))
  simp only [lex?, skipByteOrderMark_of_pos hm, hpos, rest_down, skipBlanks_down]
  cases tightSymbolAt? set m.rest with
  | some x => simp [Lexed.down]
  | none =>
    simp only [Option.map_map]
    congr 1
    funext x
    simp [Lexed.down]

/-- The tree of a token in a state, and whether its text is a keyword. -/
def Lexed.read (s : State) (lead : Nat) (l : Lexed) : Tree × Bool :=
  if l.symbol == .identifier then
    match Symbol.ofWord? (l.start.rest.take (l.stop.offset - l.start.offset)) with
    | none => (.leaf .identifier lead l.start l.stop, false)
    | some word =>
      let taken := Automaton.admits s word ||
        s != Automaton.lost && word.isReserved && Automaton.admits s .identifier
      (.leaf (if taken then word else .identifier) lead l.start l.stop, true)
  else (.leaf l.symbol lead l.start l.stop, false)

theorem Lexed.read_down (s : State) (n lead : Nat) (l : Lexed) :
    (l.down n).read s (lowerOffset n lead) = ((l.read s lead).1.lower n, (l.read s lead).2) := by
  have htext : (l.down n).start.rest.take ((l.down n).stop.offset - (l.down n).start.offset) =
      l.start.rest.take (l.stop.offset - l.start.offset) := by
    simp only [Lexed.down, Mark.rest_down, Mark.offset_down, Nat.add_sub_add_right]
  unfold Lexed.read
  rw [htext, show (l.down n).symbol = l.symbol from rfl]
  split
  · cases Symbol.ofWord? (l.start.rest.take (l.stop.offset - l.start.offset)) with
    | none => simp only [Tree.lower_leaf]; rfl
    | some word => simp only [Tree.lower_leaf]; rfl
  · simp only [Tree.lower_leaf]
    rfl

/-- What a reader finds behind a mark, in the mode of its state or else in none. -/
def Mark.find? (s : State) (m : Mark) : Option Lexed :=
  (m.lex? (modeSymbols (Automaton.mode s))).or (m.lex? looseSymbols)

theorem readToken_of_find? {s : State} {m : Mark} {l : Lexed} (h : m.find? s = some l) :
    readToken s m = l.read s m.offset := by
  unfold Mark.find? at h
  unfold readToken
  simp only [h]
  rfl

theorem find?_of_symbol? {s : State} {m : Mark} {token : Tree} {isKeyword : Bool} {t : Symbol}
    (hread : readToken s m = (token, isKeyword)) (ht : token.symbol? = some t) :
    ∃ l, m.find? s = some l ∧ l.read s m.offset = (token, isKeyword) := by
  cases hfind : m.find? s with
  | some l => exact ⟨l, rfl, by rw [← readToken_of_find? hfind, hread]⟩
  | none =>
    unfold Mark.find? at hfind
    unfold readToken at hread
    simp only [hfind] at hread
    rw [← (Prod.mk.inj hread).1] at ht
    cases ht

section Tokens

variable {n : Nat} {s : State} {m : Mark} {token : Tree} {isKeyword : Bool} {t : Symbol}

/-- A token behind the first one. -/
theorem readToken_down (hm : 0 < m.offset) (hread : readToken s m = (token, isKeyword))
    (ht : token.symbol? = some t) : readToken s (m.down n) = (token.lower n, isKeyword) := by
  obtain ⟨l, hfind, hl⟩ := find?_of_symbol? hread ht
  have hdown : (m.down n).find? s = some (l.down n) := by
    unfold Mark.find? at hfind ⊢
    rw [Mark.lex?_down hm, Mark.lex?_down hm, ← Option.map_or, hfind]
    rfl
  rw [readToken_of_find? hdown, Mark.offset_down, ← lowerOffset_of_pos hm, Lexed.read_down, hl]

/-- Behind the end of a line stands the beginning of the source. -/
structure Mark.Follows (n : Nat) (source : Bytes) (m : Mark) : Prop where
  rest : m.rest = lineFeed :: source
  pos : 0 < m.offset
  step : m.step = (Mark.ofSource source).down n

variable {source : Bytes}

theorem Mark.Follows.offset (h : m.Follows n source) : m.offset = n - 1 ∧ 0 < n := by
  have hstep : m.step.offset = m.offset + 1 := by
    simp only [Mark.step, h.rest]
  rw [h.step] at hstep
  have hzero : ((Mark.ofSource source).down n).offset = 0 + n := rfl
  omega

/-- A line feed is blank where no token may start with it. -/
theorem Mark.Follows.lex? (h : m.Follows n source) (mode : Nat) (hmode : mode ∈ [0, 1])
    (hbom : (Mark.ofSource source).skipByteOrderMark = .ofSource source)
    (htight : tightSymbolAt? (modeSymbols mode) source = none) :
    m.lex? (modeSymbols mode) =
      ((Mark.ofSource source).lex? (modeSymbols mode)).map (Lexed.down n) := by
  have hsets : ∀ mode ∈ [0, 1], (modeSymbols mode).contains .newline = false ∧
      ∀ bs : Bytes, tightSymbolAt? (modeSymbols mode) (lineFeed :: bs) = none := by
    intro mode hmode
    rcases List.mem_cons.mp hmode with rfl | hmode
    · exact ⟨by decide, fun bs => tightSymbolAt?_loose (by decide) (by decide)⟩
    · obtain rfl := List.mem_singleton.mp hmode
      exact ⟨by decide, fun bs => tightSymbolAt?_eq_none (by decide) _⟩
  obtain ⟨hnewline, hnone⟩ := hsets mode hmode
  have hskip : m.skipBlanks true = ((Mark.ofSource source).skipBlanks true).down n := by
    have hrun : (lineFeed :: source).takeWhile (fun b => isBlankByte b && (true || b != lineFeed)) =
        lineFeed :: source.takeWhile fun b => isBlankByte b && (true || b != lineFeed) := by
      simp [isBlankByte_lineFeed]
    rw [Mark.skipBlanks, h.rest, hrun, List.length_cons, Mark.advance, h.step, Mark.advance_down]
    rfl
  have hrest : (Mark.ofSource source).rest = source := rfl
  simp only [Mark.lex?, Mark.skipByteOrderMark_of_pos h.pos, hbom, h.rest, hrest, hnone, htight,
    hnewline, Bool.not_false, hskip, Mark.rest_down, Option.map_map]
  congr 1
  funext x
  simp [Lexed.down]

theorem tightSymbolAt?_cases {bs : Bytes} {x : Symbol × Nat}
    (h : tightSymbolAt? (modeSymbols 0) bs = some x) : x.1 = .closingQuote ∨ x.1 = .escape := by
  have hraw : (modeSymbols 0).contains .rawContent = false := by decide
  have hcontent : (modeSymbols 0).contains .content = false := by decide
  unfold tightSymbolAt? at h
  rw [hraw, hcontent] at h
  simp only [Bool.false_eq_true, if_false, Bool.false_and] at h
  split_ifs at h
  · exact .inl (by cases h; rfl)
  · exact .inr (by cases h; rfl)

/-- The first token, if it may come first. -/
theorem Mark.Follows.readToken (h : m.Follows n source)
    (hbom : (Mark.ofSource source).skipByteOrderMark = .ofSource source)
    (hread : readToken Automaton.initial (.ofSource source) = (token, isKeyword))
    (ht : token.symbol? = some t) (ha : Automaton.actions Automaton.initial t ≠ []) :
    readToken Automaton.initial m = (token.lower n, isKeyword) := by
  have hmode : Automaton.mode Automaton.initial = 1 := Automaton.mode_entry (by decide)
  have hstrict := h.lex? 1 (by simp) hbom (tightSymbolAt?_eq_none (by decide) _)
  obtain ⟨l, hfind, hl⟩ := find?_of_symbol? hread ht
  have hdown : m.find? Automaton.initial = some (l.down n) := by
    unfold Mark.find? looseSymbols at hfind ⊢
    rw [hmode] at hfind ⊢
    cases hlex : (Mark.ofSource source).lex? (modeSymbols 1) with
    | some l' =>
      rw [hlex, Option.some_or] at hfind
      rw [hstrict, hlex, ← Option.some.inj hfind]
      rfl
    | none =>
      rw [hlex, Option.none_or] at hfind
      -- a quote or an escape that stands right here may not come first
      have htight : tightSymbolAt? (modeSymbols 0) source = none := by
        by_contra hsome
        obtain ⟨x, hx⟩ := Option.ne_none_iff_exists'.mp hsome
        have hsymbol : l.symbol = .closingQuote ∨ l.symbol = .escape := by
          have hrest : (Mark.ofSource source).rest = source := rfl
          simp only [Mark.lex?, hbom, hrest, hx, Option.some.injEq] at hfind
          rw [← hfind]
          exact tightSymbolAt?_cases hx
        have hword : (l.symbol == Symbol.identifier) = false := by
          rcases hsymbol with hs | hs <;> rw [hs] <;> rfl
        have hleaf : token = .leaf l.symbol 0 l.start l.stop := by
          have hfirst := congrArg Prod.fst hl
          simp only [Lexed.read, hword, Bool.false_eq_true, if_false] at hfirst
          exact hfirst.symm
        obtain rfl : l.symbol = t := by simpa [hleaf, Tree.leaf, Tree.symbol?] using ht
        have hnone : ∀ s ∈ [Symbol.closingQuote, .escape],
            Automaton.actions Automaton.initial s = [] := by decide +kernel
        exact ha (hnone _ (by simpa using hsymbol))
      rw [hstrict, hlex, h.lex? 0 (by simp) hbom htight, hfind]
      rfl
  have hoffset : m.offset = lowerOffset n (Mark.ofSource source).offset := h.offset.1
  rw [readToken_of_find? hdown, hoffset, Lexed.read_down, hl]

end Tokens

end ImportGroups.Source
