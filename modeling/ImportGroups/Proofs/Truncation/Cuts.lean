import ImportGroups.Proofs.Truncation.Halts

/-!
Reading an open block up to where it breaks off.

The text of a block may end anywhere: in white space, in or behind an alias, in a literal of either style
or behind it. What was read before leads to a column on which the reading halts.
-/

namespace ImportGroups.Source

open Text (Bytes)
open Header (Style ImportPath Spec Alias Name Blanks LineBreak Block)

theorem prefix_append_cases {α : Type} {t a b : List α} (h : t <+: a ++ b) :
    t <+: a ∨ ∃ t', t = a ++ t' ∧ t' <+: b := by
  obtain ⟨u, hu⟩ := h
  rcases List.append_eq_append_iff.mp hu with ⟨a', rfl, -⟩ | ⟨b', rfl, hb⟩
  · exact .inl (List.prefix_append _ _)
  · exact .inr ⟨b', rfl, u, hb.symm⟩

theorem prefix_append_cons_cases {α : Type} {t a b : List α} {x : α} (h : t <+: a ++ x :: b) :
    t <+: a ∨ ∃ t', t = a ++ x :: t' ∧ t' <+: b := by
  rcases prefix_append_cases h with h' | ⟨t', rfl, h'⟩
  · exact .inl h'
  · rcases List.prefix_cons_iff.mp h' with rfl | ⟨t'', rfl, h''⟩
    · exact .inl (by simp)
    · exact .inr ⟨t'', rfl, h''⟩

theorem isWord_of_isPrefix {t word : Bytes} (h : t <+: word) (hword : isWord word = true) (hne : t ≠ []) :
    isWord t = true := by
  obtain ⟨u, rfl⟩ := h
  cases t with
  | nil => exact absurd rfl hne
  | cons b bs =>
    simp only [List.cons_append, isWord, Bool.and_eq_true, List.all_append] at hword ⊢
    exact ⟨hword.1, hword.2.1⟩

variable {start : Mark} {base k : Column} {slot : Slot} {names : List State} {w v text : Bytes}

/-- From the column the reading goes on to one above the base on which it halts. -/
def Stops (start : Mark) (base k : Column) : Prop :=
  ∃ m slot k', slot ≠ Slot.alone ∧ Reads start m k k' ∧ Halts start slot k' ∧ base <:+ k'

theorem Stops.here (hslot : slot ≠ .alone) (hbase : base <:+ k) (h : Halts start slot k) :
    Stops start base k :=
  ⟨0, slot, k, hslot, .refl k, h, hbase⟩

theorem Stops.of_reads {m : Nat} {k' : Column} (hreads : Reads start m k k') (h : Stops start base k') :
    Stops start base k := by
  obtain ⟨n, slot, k'', hslot, hreads', hhalts, hbase⟩ := h
  exact ⟨m + n, slot, k'', hslot, hreads.trans hreads', hhalts, hbase⟩

theorem Slot.mem_remnants {literal : List State} (hliteral : literal ∈ slot.literals)
    (hnames : names ∈ slot.aliases) : literal ++ names ∈ slot.remnants :=
  List.mem_cons_of_mem _ (List.mem_flatMap.mpr ⟨names, hnames, List.mem_map_of_mem hliteral⟩)

theorem Column.state_of_states {q : State} {qs : List State} (h : k.states = q :: qs) : k.state = q := by
  rw [← headD_states, h]
  rfl

theorem ended_of_blank {top : List State} (htop : top ∈ slot.remnants)
    (hstates : k.states = top ++ slot.column) (hpos : 0 < (k.mark start).offset)
    (hrest : ∀ b ∈ (k.mark start).rest, isBlankByte b = true ∧ b ≠ lineFeed)
    (hstring : Automaton.mode k.state = 9 → (k.mark start).rest = []) : Ended start slot k :=
  ⟨⟨top, htop, hstates⟩, fun b hb => by simp [blankIn, hrest b hb], hstring, hpos⟩

theorem ended_of_nil {top : List State} (htop : top ∈ slot.remnants)
    (hstates : k.states = top ++ slot.column) (hpos : 0 < (k.mark start).offset)
    (hrest : (k.mark start).rest = []) : Ended start slot k :=
  ended_of_blank htop hstates hpos (by simp [hrest]) fun _ => hrest

theorem ended_of_mode {top : List State} (htop : top ∈ slot.remnants)
    (hstates : k.states = top ++ slot.column) (hpos : 0 < (k.mark start).offset)
    (hmode : Automaton.mode k.state ∈ [1, 3])
    (hrest : ∀ b ∈ (k.mark start).rest, isBlankByte b = true) : Ended start slot k := by
  have hsets : ∀ mode ∈ [1, 3], (modeSymbols mode).contains .newline = false := by decide
  refine ⟨⟨top, htop, hstates⟩, fun b hb => (blankIn_eq (hsets _ hmode) b).trans (hrest b hb),
    fun hstring => ?_, hpos⟩
  rw [hstring] at hmode
  exact absurd hmode (by decide)

theorem Column.mark_of_coverAll {top : Column} {a b : Mark} {es : List Event}
    (h : Tree.CoverAll top.trees a b es) : Column.mark start (top ++ k) = b := by
  obtain ⟨-, -, hlast, -⟩ := h.props
  cases top with
  | nil => simp at hlast
  | cons x top =>
    rw [trees_cons, List.getLast?_concat, Option.map_some, Option.some.injEq] at hlast
    exact hlast

theorem mode_of_ending {q : State} {p : Phrase} {n : Nat} (h : (q, p, n) ∈ slot.endings) :
    Automaton.mode q ≠ 9 := by
  have hmode := (slot.ending h).1
  intro hstring
  rw [hstring] at hmode
  exact absurd hmode (by decide)

/-- A whole literal lies on the column, and no line feed stands behind it. -/
theorem stops_closed {m n : Nat} {top : Column} {p : Phrase} {opened : State} {a b : Mark} {es : List Event}
    (hslot : slot ≠ .alone) (hnames : names ∈ slot.aliases)
    (hk : k.states = opened :: (names ++ slot.column)) (hbase : base <:+ k)
    (hpos : 0 < (k.mark start).offset) (hreads : Reads start m k (top ++ k))
    (hending : (Column.state (top ++ k), p, n) ∈ slot.endings)
    (hcover : Tree.CoverAll top.trees a b es) (hliteral : top.states ++ [opened] ∈ slot.literals)
    (hrest : ∀ c ∈ b.rest, isBlankByte c = true ∧ c ≠ lineFeed) : Stops start base k := by
  have hle := hreads.le_offset
  have hmark : Column.mark start (top ++ k) = b := Column.mark_of_coverAll hcover
  refine .of_reads hreads (.here hslot (hbase.trans (List.suffix_append top k)) (.ended
    (ended_of_blank (Slot.mem_remnants hliteral hnames) (by simp [hk]) (by omega) (hmark ▸ hrest)
      fun hstring => absurd hstring (mode_of_ending hending))))

theorem stops_inside {t : Symbol} {opened : State} (filled : State) (hslot : slot ≠ .alone)
    (hnames : names ∈ slot.aliases) (hk : k.states = opened :: (names ++ slot.column))
    (hbase : base <:+ k) (hrest : (k.mark start).rest = text) (hne : text ≠ [])
    (hread : readToken k.state (k.mark start) = ((k.mark start).token t [] text, false))
    (hshift : (opened, t, filled) ∈ slot.shifts) (hliteral : [filled, opened] ∈ slot.literals) :
    Stops start base k := by
  have hrest' : (k.mark start).rest = [] ++ (text ++ []) := by simpa using hrest
  have hlt : (k.mark start).offset < ((k.mark start).token t [] text).stop.offset :=
    Mark.offset_lt_token hrest' hne
  have hactions : Automaton.actions k.state t = [.shift filled] := by
    rw [Column.state_of_states hk]
    exact slot.actions_shift hshift
  exact .of_reads (.one (.of_forms ⟨_, hread⟩ rfl (.refl k) hactions) (by decide) hlt)
    (.here hslot (hbase.trans (List.suffix_cons _ k)) (.ended
      (ended_of_nil (Slot.mem_remnants hliteral hnames) (by simp [hk]) (Nat.zero_lt_of_lt hlt)
        (Mark.rest_token hrest'))))

/-- The text breaks off behind the quote that opens a literal. -/
theorem stops_quoted (path : ImportPath) (hslot : slot ≠ .alone) (hnames : names ∈ slot.aliases)
    (hk : k.states = slot.quoted :: (names ++ slot.column)) (hbase : base <:+ k)
    (hpos : 0 < (k.mark start).offset) (hrest : (k.mark start).rest = text)
    (htext : text <+: path.bytes ++ quoteByte :: v)
    (hv : ∀ b ∈ v, isBlankByte b = true ∧ b ≠ lineFeed) : Stops start base k := by
  have hstate := Column.state_of_states hk
  obtain ⟨hmode, -⟩ := slot.inside
  rw [← hstate] at hmode
  rcases prefix_append_cons_cases htext with htext | ⟨t, rfl, ht⟩
  · by_cases hempty : text = []
    · have hmem : [slot.quoted] ++ names ∈ slot.remnants :=
        Slot.mem_remnants (by simp [Slot.literals]) hnames
      exact .here hslot hbase (.ended (ended_of_nil hmem hk hpos (hrest.trans hempty)))
    · refine stops_inside slot.filled hslot hnames hk hbase hrest hempty
        (readToken_content hmode (by rw [hrest, List.append_nil]) hpos hempty
          (fun b hb => ImportPath.isContentByte (htext.subset hb)) (by simp))
        (by simp [Slot.shifts]) (by simp [Slot.literals])
  · obtain ⟨m, top, hreads, -, hending, hcover, hstates⟩ := reads_quotedRest hstate hrest hpos
    refine stops_closed hslot hnames hk hbase hpos hreads hending hcover ?_ ?_
    · simp only [List.mem_cons, List.not_mem_nil, or_false] at hstates
      rcases hstates with hstates | hstates <;> simp [hstates, Slot.literals]
    · rw [Mark.rest_past (by simpa using hrest)]
      exact fun b hb => hv b (ht.subset hb)

/-- The text breaks off behind the backquote that opens a literal. -/
theorem stops_rawQuoted (path : ImportPath) (hslot : slot ≠ .alone) (hnames : names ∈ slot.aliases)
    (hk : k.states = slot.rawQuoted :: (names ++ slot.column)) (hbase : base <:+ k)
    (hpos : 0 < (k.mark start).offset) (hrest : (k.mark start).rest = text)
    (htext : text <+: path.bytes ++ rawQuoteByte :: v)
    (hv : ∀ b ∈ v, isBlankByte b = true ∧ b ≠ lineFeed) : Stops start base k := by
  have hstate := Column.state_of_states hk
  obtain ⟨-, -, hmode, -, hadmits⟩ := slot.inside
  rw [← hstate] at hmode
  rcases prefix_append_cons_cases htext with htext | ⟨t, rfl, ht⟩
  · have hread := readToken_rawContent hmode (by rw [hrest, List.append_nil]) hpos
      (fun b hb => ImportPath.isRawByte (htext.subset hb)) (by simp)
    by_cases hempty : text = []
    · subst hempty
      have hmem : [slot.rawFilled, slot.rawQuoted] ++ names ∈ slot.remnants :=
        Slot.mem_remnants (by simp [Slot.literals]) hnames
      have hactions : Automaton.actions k.state .rawContent = [.shift slot.rawFilled] := by
        rw [hstate]
        exact slot.actions_shift (by simp [Slot.shifts])
      exact .here hslot hbase (.empty (.of_forms ⟨_, hread⟩ rfl (.refl k) hactions) hadmits
        (ended_of_nil hmem (by simp [hk]) hpos hrest))
    · exact stops_inside slot.rawFilled hslot hnames hk hbase hrest hempty hread
        (by simp [Slot.shifts]) (by simp [Slot.literals])
  · obtain ⟨m, top, hreads, -, hending, hcover, hstates⟩ := reads_rawRest hstate hrest hpos
    refine stops_closed hslot hnames hk hbase hpos hreads hending hcover ?_ ?_
    · simp [hstates, Slot.literals]
    · rw [Mark.rest_past (by simpa using hrest)]
      exact fun b hb => hv b (ht.subset hb)

/-- The text breaks off behind the first byte of a literal. -/
theorem stops_literal {n : Nat} {k' : Column} (style : Style) (path : ImportPath) (hslot : slot ≠ .alone)
    (hnames : names ∈ slot.aliases) (hk : k'.states = names ++ slot.column) (hbase : base <:+ k')
    (hopen : k'.state ∈ slot.opening) (hmode : Automaton.mode k.state ∈ [1, 3])
    (hforms : ∀ t ∈ [Symbol.quote, .rawQuote], Forms start t n k k') (hn : n ≤ 20)
    (hpos : 0 < (k.mark start).offset) (hw : ∀ b ∈ w, isBlankByte b = true)
    (hrest : (k.mark start).rest = w ++ ([style.byte] ++ text))
    (htext : text <+: path.bytes ++ style.byte :: v)
    (hv : ∀ b ∈ v, isBlankByte b = true ∧ b ≠ lineFeed) : Stops start base k := by
  let quote := (k.mark start).token (openingSymbol style) w [style.byte]
  have hread := readToken_quote hmode hrest hpos hw
  have hlt : (k.mark start).offset < quote.stop.offset := Mark.offset_lt_token hrest (by simp)
  have hbase' : ∀ q, base <:+ (q, quote) :: k' := fun q => hbase.trans (List.suffix_cons _ k')
  obtain ⟨-, hquote, hrawQuote, -⟩ := slot.literal hopen
  cases style with
  | quoted =>
    have htakes : Takes start quote n k ((slot.quoted, quote) :: k') :=
      .of_forms ⟨_, hread⟩ rfl (hforms .quote (by simp)) hquote
    exact .of_reads (.one htakes hn hlt) (stops_quoted path hslot hnames (by simp [hk]) (hbase' _)
      (Nat.zero_lt_of_lt hlt) (Mark.rest_token hrest) htext hv)
  | raw =>
    have htakes : Takes start quote n k ((slot.rawQuoted, quote) :: k') :=
      .of_forms ⟨_, hread⟩ rfl (hforms .rawQuote (by simp)) hrawQuote
    exact .of_reads (.one htakes hn hlt) (stops_rawQuoted path hslot hnames (by simp [hk]) (hbase' _)
      (Nat.zero_lt_of_lt hlt) (Mark.rest_token hrest) htext hv)

/-- The text breaks off in the white space where a spec may start. -/
theorem stops_blank (hslot : slot ≠ .alone) (hk : k.states = slot.column) (hbase : base <:+ k)
    (hpos : 0 < (k.mark start).offset) (hrest : ∀ b ∈ (k.mark start).rest, isBlankByte b = true) :
    Stops start base k := by
  have hmem : [] ++ [] ∈ slot.remnants :=
    Slot.mem_remnants (by simp [Slot.literals]) (by simp [Slot.aliases])
  refine .here hslot hbase (.ended (ended_of_mode hmem hk hpos ?_ hrest))
  rw [← k.headD_states, hk, slot.state_column, slot.outset.1]
  decide

theorem Slot.wordSymbol_cases (hslot : slot ≠ .alone) (word : Bytes) :
    (∃ target ∈ [slot.named, slot.marked],
      Automaton.actions slot.state (wordSymbol slot.state word) = [.shift target]) ∨
        ∃ x ∈ Symbol.reservedWords, Symbol.ofWord? word = some x.2 := by
  have hname : Automaton.actions slot.state .identifier = [.shift slot.named] :=
    slot.actions_shift (by simp [Slot.shifts])
  have hmark : Automaton.actions slot.state .underscore = [.shift slot.marked] :=
    slot.actions_shift (by simp [Slot.shifts])
  unfold wordSymbol
  cases hword : Symbol.ofWord? word with
  | none => exact .inl ⟨_, by simp, hname⟩
  | some t =>
    rw [Symbol.ofWord?, Option.map_eq_some_iff] at hword
    obtain ⟨y, hfind, rfl⟩ := hword
    obtain ⟨x, hx, rfl⟩ := List.mem_map.mp (List.mem_of_find?_eq_some hfind)
    rcases List.mem_append.mp hx with hx | hx
    · exact .inr ⟨x, hx, rfl⟩
    · refine .inl ?_
      rcases soft_entries hslot x hx with hunderscore | ⟨hadmits, hreserved⟩
      · dsimp only
        rw [hunderscore]
        split
        · exact ⟨_, by simp, hmark⟩
        · exact ⟨_, by simp, hname⟩
      · exact ⟨slot.named, by simp, by simp [hadmits, hreserved, hname]⟩

/-- The text breaks off in a word where a spec may start, or in the white space behind it. -/
theorem stops_word {word : Bytes} (hslot : slot ≠ .alone) (hk : k.states = slot.column)
    (hbase : base <:+ k) (hpos : 0 < (k.mark start).offset) (hw : ∀ b ∈ w, isBlankByte b = true)
    (hrest : (k.mark start).rest = w ++ (word ++ v)) (hword : isWord word = true)
    (hv : ∀ b ∈ v, isBlankByte b = true)
    (hreserved : ∀ x ∈ Symbol.reservedWords, Symbol.ofWord? word = some x.2 → v = []) :
    Stops start base k := by
  have hstate : k.state = slot.state := by rw [← k.headD_states, hk, slot.state_column]
  rcases Slot.wordSymbol_cases hslot word with ⟨target, htarget, hshift⟩ | ⟨x, hx, hsymbol⟩
  · obtain ⟨hmode, hbom, htight, hblank⟩ := slot_ready hstate hpos hw
    have hset : (modeSymbols (Automaton.mode k.state)).contains .identifier = true := by
      rw [hmode]
      decide
    have hmore : ∀ b ∈ v.head?, isWordEnd b = true :=
      fun b hb => isWordEnd_of_isBlankByte (hv b (List.mem_of_mem_head? hb))
    have hread := readToken_word hrest hbom htight hset hblank hword hmore
    have hne : word ≠ [] := by
      rintro rfl
      simp [isWord] at hword
    let token := (k.mark start).token (wordSymbol k.state word) w word
    have hlt : (k.mark start).offset < token.stop.offset := Mark.offset_lt_token hrest hne
    have hopen : target ∈ slot.opening := List.mem_cons_of_mem _ htarget
    have hmem : [] ++ [target] ∈ slot.remnants := by
      refine Slot.mem_remnants (by simp [Slot.literals]) ?_
      simp only [List.mem_cons, List.not_mem_nil, or_false] at htarget
      rcases htarget with rfl | rfl <;> simp [Slot.aliases]
    refine .of_reads (.one (.of_forms hread rfl (.refl k) (hstate ▸ hshift)) (by decide) hlt)
      (.here hslot (hbase.trans (List.suffix_cons _ k)) (.ended
        (ended_of_mode hmem (by simp [hk]) (Nat.zero_lt_of_lt hlt) (slot.literal hopen).1 ?_)))
    rw [Column.mark_cons, Mark.rest_token hrest]
    exact hv
  · obtain rfl := hreserved x hx hsymbol
    rw [List.append_nil] at hrest
    exact .here hslot hbase (.barred ⟨hk, hrest, hw, hword, ⟨x, hx, hsymbol⟩, hpos⟩)

/-- The text breaks off behind a dot, or in the white space behind it. -/
theorem stops_dot (hslot : slot ≠ .alone) (hk : k.states = slot.column) (hbase : base <:+ k)
    (hpos : 0 < (k.mark start).offset) (hw : ∀ b ∈ w, isBlankByte b = true)
    (hrest : (k.mark start).rest = w ++ ([Header.dotByte] ++ v)) (hv : ∀ b ∈ v, isBlankByte b = true) :
    Stops start base k := by
  have hstate : k.state = slot.state := by rw [← k.headD_states, hk, slot.state_column]
  obtain ⟨token, -, hreads, -, hstop, -⟩ := reads_dot hstate hrest hpos hw
    fun b hb => .inl (hv b (List.mem_of_mem_head? hb))
  have hmode : Automaton.mode 12 = 1 := Automaton.mode_entry (by decide)
  refine .of_reads hreads (.here hslot (hbase.trans (List.suffix_cons _ k)) (.ended
    (ended_of_mode (show [12] ∈ slot.remnants from List.mem_cons_self) (by simp [hk])
      (Nat.zero_lt_of_lt hreads.le_offset) (by rw [Column.state_cons, hmode]; decide) ?_)))
  rw [Column.mark_cons, hstop, Mark.rest_past (Mark.rest_past hrest)]
  exact hv

theorem Slot.mem_aliases (slot : Slot) {target : State} (hopen : target ∈ slot.opening)
    (hending : (slot.afterLiteral target, Phrase.importSpec, 2) ∈ slot.endings) :
    [target] ∈ slot.aliases := by
  have hall : ∀ target ∈ slot.opening,
      (slot.afterLiteral target, Phrase.importSpec, 2) ∈ slot.endings → [target] ∈ slot.aliases := by
    cases slot <;> decide
  exact hall target hopen hending

theorem Alias.ne_nil (a : Alias) : a.bytes ≠ [] := by
  cases a with
  | dot => exact List.cons_ne_nil _ _
  | name name => exact name.ne_nil

theorem Name.not_reserved {name : Name} {x : String × Symbol} (hx : x ∈ Symbol.reservedWords) :
    Symbol.ofWord? name.bytes ≠ some x.2 := by
  intro hword
  have hfree : ∀ t ∈ [Symbol.underscore, .makeWord, .newWord], t.isReserved = false := by decide
  have hreserved := (isReserved_of_mem hx).1
  rw [hfree _ (Name.ofWord?_mem hword)] at hreserved
  cases hreserved

/-- The text breaks off behind an alias with the white space after it and the first byte of a literal. -/
theorem stops_aliased {s : Spec} {a : Alias} {gap : Blanks} {t : Bytes} (hslot : slot ≠ .alone)
    (hk : k.states = slot.column) (hbase : base <:+ k) (hpos : 0 < (k.mark start).offset)
    (hw : ∀ b ∈ w, isBlankByte b = true)
    (hrest : (k.mark start).rest = w ++ (a.bytes ++ (gap.bytes ++ ([s.style.byte] ++ t))))
    (ht : t <+: s.path.bytes ++ s.style.byte :: v)
    (hv : ∀ b ∈ v, isBlankByte b = true ∧ b ≠ lineFeed) : Stops start base k := by
  have hstate : k.state = slot.state := by rw [← k.headD_states, hk, slot.state_column]
  have hhead : ∀ b ∈ (gap.bytes ++ ([s.style.byte] ++ t)).head?,
      isBlankByte b = true ∨ b = s.style.byte := head?_gap gap.blank
  have hin : (((k.mark start).past w).past a.bytes).rest = gap.bytes ++ ([s.style.byte] ++ t) :=
    Mark.rest_past (Mark.rest_past hrest)
  cases a with
  | dot =>
    have hmore : ∀ b ∈ (gap.bytes ++ ([s.style.byte] ++ t)).head?,
        isBlankByte b = true ∨ b = quoteByte ∨ b = rawQuoteByte := by
      intro b hb
      refine (hhead b hb).imp_right ?_
      cases s.style
      · exact .inl
      · exact .inr
    obtain ⟨token, dotted, hreads, hforms, hstop, -⟩ := reads_dot hstate hrest hpos hw hmore
    have hmode : Automaton.mode 12 = 1 := Automaton.mode_entry (by decide)
    rw [Alias.bytes, ← hstop] at hin
    exact .of_reads hreads (stops_literal s.style s.path hslot
      (show [slot.marked] ∈ slot.aliases by simp [Slot.aliases]) (by simp [hk])
      (hbase.trans (List.suffix_cons _ k)) (by simp [Slot.opening])
      (by rw [Column.state_cons, hmode]; decide) hforms (by decide)
      (Nat.zero_lt_of_lt hreads.le_offset) gap.blank hin ht hv)
  | name name =>
    have hmore : ∀ b ∈ (gap.bytes ++ ([s.style.byte] ++ t)).head?, isWordEnd b = true := by
      intro b hb
      rcases hhead b hb with hblank | rfl
      · exact isWordEnd_of_isBlankByte hblank
      · cases s.style <;> decide
    obtain ⟨target, token, hreads, hopen, hending, htoken⟩ := reads_name hstate hrest hpos hw hmore
    rw [Alias.bytes, ← htoken.stop] at hin
    exact .of_reads hreads (stops_literal s.style s.path hslot
      (slot.mem_aliases hopen hending) (by simp [hk])
      (hbase.trans (List.suffix_cons (target, token) k)) hopen (slot.literal hopen).1
      (fun t _ => .refl _) (by decide) (Nat.zero_lt_of_lt hreads.le_offset) gap.blank hin ht hv)

theorem stops_spec {s : Spec} (hslot : slot ≠ .alone) (hk : k.states = slot.column) (hbase : base <:+ k)
    (hpos : 0 < (k.mark start).offset) (hw : ∀ b ∈ w, isBlankByte b = true)
    (hrest : (k.mark start).rest = w ++ text) (htext : text <+: s.bytes ++ v)
    (hv : ∀ b ∈ v, isBlankByte b = true ∧ b ≠ lineFeed) : Stops start base k := by
  have hstate : k.state = slot.state := by rw [← k.headD_states, hk, slot.state_column]
  by_cases hempty : text = []
  · exact stops_blank hslot hk hbase hpos (by rw [hrest, hempty, List.append_nil]; exact hw)
  obtain ⟨alias?, style, path⟩ := s
  cases alias? with
  | none =>
    have htext : text <+: style.byte :: (path.bytes ++ style.byte :: v) := by
      simpa [Spec.bytes, Spec.label, Spec.literal] using htext
    obtain ⟨t, rfl, ht⟩ := (List.prefix_cons_iff.mp htext).resolve_left hempty
    have hnone : [] ∈ slot.aliases := by simp [Slot.aliases]
    exact stops_literal style path hslot hnone hk hbase (by simp [Slot.opening, hstate])
      (by rw [hstate, slot.outset.1]; decide) (fun t _ => .refl k) (by decide) hpos hw hrest ht hv
  | some x =>
    obtain ⟨a, gap⟩ := x
    have htext : text <+: a.bytes ++ (gap.bytes ++ style.byte :: (path.bytes ++ style.byte :: v)) := by
      simpa [Spec.bytes, Spec.label, Spec.literal] using htext
    -- the text is a part of the alias with white space behind it, or there is something of the literal
    have hcases : (∃ t u, text = t ++ u ∧ t <+: a.bytes ∧ u <+: gap.bytes ∧ (u ≠ [] → t = a.bytes)) ∨
        ∃ t, text = a.bytes ++ (gap.bytes ++ ([style.byte] ++ t)) ∧
          t <+: path.bytes ++ style.byte :: v := by
      rcases prefix_append_cases htext with ht | ⟨t, rfl, ht⟩
      · exact .inl ⟨text, [], by simp, ht, by simp, by simp⟩
      · rcases prefix_append_cons_cases ht with hu | ⟨u, rfl, hu⟩
        · exact .inl ⟨a.bytes, t, rfl, List.prefix_refl _, hu, fun _ => rfl⟩
        · exact .inr ⟨u, by simp, hu⟩
    rcases hcases with ⟨t, u, rfl, ht, hu, hwhole⟩ | ⟨t, rfl, ht⟩
    · have hblank : ∀ b ∈ u, isBlankByte b = true := fun b hb => gap.blank b (hu.subset hb)
      have hne : t ≠ [] := by
        rintro rfl
        exact Alias.ne_nil a (hwhole hempty).symm
      cases a with
      | dot =>
        obtain rfl : t = [Header.dotByte] := by
          rcases List.prefix_cons_iff.mp ht with rfl | ⟨t', rfl, ht'⟩
          · exact absurd rfl hne
          · rw [List.prefix_nil.mp ht']
        exact stops_dot hslot hk hbase hpos hw hrest hblank
      | name name =>
        refine stops_word hslot hk hbase hpos hw hrest (isWord_of_isPrefix ht name.word hne) hblank ?_
        intro x hx hsymbol
        by_contra hne'
        rw [hwhole hne'] at hsymbol
        exact Name.not_reserved hx hsymbol
    · exact stops_aliased (s := ⟨some (a, gap), style, path⟩) hslot hk hbase hpos hw hrest ht hv

/-- A column of an open block where a spec may start. The base reaches up to the parenthesis. -/
inductive Opened (base : Column) : Slot → Column → Prop where
  | first : Opened base .first base
  | second {t feed : Tree} {a b c d : Mark} {es : List Event} : t.Covers a b es → feed.Covers c d [] →
      Opened base .second ((49, feed) :: (29, t) :: base)
  | later {t u feed : Tree} {a b c d e f : Mark} {es fs : List Event} : t.Covers a b es →
      u.Covers c d fs → feed.Covers e f [] →
      Opened base .later ((66, feed) :: (51, u) :: (29, t) :: base)

namespace Opened

theorem states (h : Opened base slot k) (hbase : base.states = Slot.first.column) :
    slot ≠ .alone ∧ k.states = slot.column ∧ base <:+ k := by
  cases h with
  | first => exact ⟨nofun, hbase, List.suffix_refl _⟩
  | second => exact ⟨nofun, by simp [hbase, Slot.column], ⟨[_, _], rfl⟩⟩
  | later => exact ⟨nofun, by simp [hbase, Slot.column], ⟨[_, _, _], rfl⟩⟩

/-- Behind a spec, a line feed leads to where the next one may start. -/
theorem next {k₁ : Column} {tree : Tree} {a b : Mark} {es : List Event} (h : Opened base slot k)
    (htree : tree.Covers a b es)
    (hpending : Pending start slot.ends 2 k₁ ((slot.done, tree) :: k)) :
    ∃ n k' slot', n ≤ 4 ∧ Closes start n k₁ k' ∧
      Automaton.actions k'.state .newline = [.shift slot'.state] ∧
      ∀ feed c d, Tree.Covers feed c d [] → Opened base slot' ((slot'.state, feed) :: k') := by
  have hline : .newline ∈ blockEnds := by decide
  have hshift : Automaton.actions 29 .newline = [.shift Slot.second.state] ∧
      Automaton.actions 51 .newline = [.shift Slot.later.state] :=
    ⟨Automaton.shift_entry (by decide), Automaton.shift_entry (by decide)⟩
  cases h with
  | first =>
    exact ⟨2, _, .second, by decide, hpending.closes hline, hshift.1,
      fun feed c d hfeed => .second htree hfeed⟩
  | @second t feed _ _ _ _ _ ht hfeed =>
    obtain ⟨u, hu, hforms⟩ := forms_more start ((29, t) :: base)
      (by decide : Slot.second.done ∈ [65, 67]) hfeed htree
    rw [Column.state_cons, afterPhrase_more.1] at hforms
    have hcloses := hpending.closes hline
    exact ⟨2 + 1, _, .later, by decide, ⟨hcloses.mode, hcloses.forms.trans (hforms _ hline)⟩, hshift.2,
      fun feed c d hfeed => .later ht hu hfeed⟩
  | @later t u feed _ _ _ _ _ _ _ _ ht hu hfeed =>
    obtain ⟨v, hv, hforms⟩ := forms_more start ((51, u) :: (29, t) :: base)
      (by decide : Slot.later.done ∈ [65, 67]) hfeed htree
    rw [Column.state_cons, afterPhrase_more.2] at hforms
    obtain ⟨v', hv', hforms'⟩ := forms_more start ((29, t) :: base)
      (by decide : 67 ∈ [65, 67]) hu hv
    rw [Column.state_cons, afterPhrase_more.1] at hforms'
    have hcloses := hpending.closes hline
    exact ⟨2 + 1 + 1, _, .later, by decide,
      ⟨hcloses.mode, (hcloses.forms.trans (hforms _ hline)).trans (hforms' _ hline)⟩, hshift.2,
      fun feed c d hfeed => .later ht hv' hfeed⟩

theorem reads_line {s : Spec} {more : Bytes} (h : Opened base slot k) (br : Blanks)
    (hbase : base.states = Slot.first.column) (hpos : 0 < (k.mark start).offset)
    (hw : ∀ b ∈ w, isBlankByte b = true) (hbreaks : lineFeed ∈ br.bytes)
    (hrest : (k.mark start).rest = w ++ (s.bytes ++ (br.bytes ++ more)))
    (hmore : ∀ b ∈ more.head?, b ≠ lineFeed) :
    ∃ m slot' k' post, Reads start m k k' ∧ Opened base slot' k' ∧ 0 < (k'.mark start).offset ∧
      (∀ b ∈ post, isBlankByte b = true) ∧ (k'.mark start).rest = post ++ more := by
  obtain ⟨hslot, hk, -⟩ := h.states hbase
  have hstate : k.state = slot.state := by rw [← k.headD_states, hk, slot.state_column]
  obtain ⟨m, k₁, tree, hreads, hpending, htree⟩ := reads_spec hstate hrest hpos hw
  obtain ⟨n, k', slot', hn, hcloses, hshift, hopened⟩ := h.next htree hpending
  have hle := hreads.le_offset
  have hmark : k₁.mark start = ((k.mark start).past w).past s.bytes := by
    have hline : .newline ∈ slot.ends := by cases slot <;> decide
    exact (hpending.mark hline).symm.trans htree.stop
  have hrest₁ : (k₁.mark start).rest = br.bytes ++ more := by
    rw [hmark, Mark.rest_past (Mark.rest_past hrest)]
  obtain ⟨pre, lines, post, hbroken⟩ := exists_broken hbreaks
  obtain ⟨hfeed, hin, -⟩ := hcloses.reads_newline (by omega) hbroken hrest₁ (by omega) hmore hshift
  exact ⟨_, slot', _, post, hreads.trans hfeed, hopened _ _ _ (Tree.covers_token _ _ _ _),
    Nat.zero_lt_of_lt hfeed.le_offset, hbroken.behind, hin⟩

/-- The text breaks off in the white space behind a spec. -/
theorem stops_behind {s : Spec} (h : Opened base slot k) (hbase : base.states = Slot.first.column)
    (hpos : 0 < (k.mark start).offset) (hw : ∀ b ∈ w, isBlankByte b = true)
    (hv : ∀ b ∈ v, isBlankByte b = true) (hrest : (k.mark start).rest = w ++ (s.bytes ++ v)) :
    Stops start base k := by
  by_cases hbreaks : lineFeed ∈ v
  · have hrest₀ : (k.mark start).rest = w ++ (s.bytes ++ (v ++ [])) := by simpa using hrest
    obtain ⟨m, slot', k', post, hreads, hopened, hpos', hpost, hrest'⟩ :=
      h.reads_line ⟨v, hv⟩ hbase hpos hw hbreaks hrest₀ (by simp)
    obtain ⟨hslot', hk', hbase'⟩ := hopened.states hbase
    exact .of_reads hreads (stops_blank hslot' hk' hbase' hpos' (by simpa [hrest'] using hpost))
  · obtain ⟨hslot, hk, hbase'⟩ := h.states hbase
    refine stops_spec (s := s) hslot hk hbase' hpos hw hrest (List.prefix_refl _)
      fun b hb => ⟨hv b hb, ?_⟩
    rintro rfl
    exact hbreaks hb

theorem stops {s : Spec} {more : List (LineBreak × Spec)} {tail : Blanks} (h : Opened base slot k)
    (hbase : base.states = Slot.first.column) (hpos : 0 < (k.mark start).offset)
    (hw : ∀ b ∈ w, isBlankByte b = true) (hrest : (k.mark start).rest = w ++ text)
    (htext : text <+: s.bytes ++ (Block.moreBytes more ++ tail.bytes)) : Stops start base k := by
  induction more generalizing slot k s w text with
  | nil =>
    rcases prefix_append_cases htext with ht | ⟨u, rfl, hu⟩
    · obtain ⟨hslot, hk, hbase'⟩ := h.states hbase
      exact stops_spec (v := []) hslot hk hbase' hpos hw hrest (by simpa using ht) (by simp)
    · exact h.stops_behind hbase hpos hw (fun b hb => tail.blank b (hu.subset hb)) hrest
  | cons x more ih =>
    obtain ⟨br, s'⟩ := x
    have htext : text <+: s.bytes ++ (br.bytes ++ (s'.bytes ++ (Block.moreBytes more ++ tail.bytes))) := by
      simpa [Block.moreBytes] using htext
    rcases prefix_append_cases htext with ht | ⟨u, rfl, hu⟩
    · obtain ⟨hslot, hk, hbase'⟩ := h.states hbase
      exact stops_spec (v := []) hslot hk hbase' hpos hw hrest (by simpa using ht) (by simp)
    · rcases prefix_append_cases hu with hu | ⟨t, rfl, ht⟩
      · exact h.stops_behind hbase hpos hw (fun b hb => br.blank b (hu.subset hb)) hrest
      · have hmore : ∀ b ∈ t.head?, b ≠ lineFeed := by
          rintro b hb rfl
          obtain ⟨t', ht'⟩ := ht
          have hhead : lineFeed ∈ (s'.bytes ++ (Block.moreBytes more ++ tail.bytes)).head? := by
            rw [← ht']
            cases t with
            | nil => cases hb
            | cons c cs => exact hb
          exact absurd (s'.head?_bytes lineFeed hhead) (by decide)
        obtain ⟨m, slot', k', post, hreads, hopened, hpos', hpost, hrest'⟩ :=
          h.reads_line br.toBlanks hbase hpos hw br.breaks hrest hmore
        exact .of_reads hreads (ih hopened hpos' hpost hrest' ht)

end Opened

end ImportGroups.Source
