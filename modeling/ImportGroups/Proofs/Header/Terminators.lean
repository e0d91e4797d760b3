import ImportGroups.Proofs.Header.Imports

/-!
Headers whose items end with a line break or with a semicolon.

A semicolon ends a package clause or an import declaration as a line break does, but it is also an
item of the file, and one that belongs to no header. So a header is taken to end at the first
semicolon behind one of its items, and the declarations behind that semicolon are not seen.
-/

namespace ImportGroups

open Text (Bytes)
open Source

namespace Header

def semicolonByte : UInt8 := 0x3B

/-- What ends a package clause or an import declaration. -/
inductive Terminator where
  | lineBreak (w : LineBreak)
  /-- A semicolon on the line of what it ends. -/
  | semicolon (before : Blanks) (inline : lineFeed ∉ before.bytes) (after : Blanks)

namespace Terminator

def bytes : Terminator → Bytes
  | lineBreak w => w.bytes
  | semicolon before _ after => before.bytes ++ semicolonByte :: after.bytes

def isSemicolon : Terminator → Bool
  | lineBreak _ => false
  | semicolon _ _ _ => true

theorem isBlankByte_around {before after : Blanks} :
    ∀ b ∈ before.bytes ++ lineFeed :: after.bytes, isBlankByte b = true := by
  intro b hb
  rcases List.mem_append.mp hb with hb | hb
  · exact before.blank b hb
  · rcases List.mem_cons.mp hb with rfl | hb
    · exact isBlankByte_lineFeed
    · exact after.blank b hb

theorem lineFeed_mem_around {before after : Blanks} :
    lineFeed ∈ before.bytes ++ lineFeed :: after.bytes :=
  List.mem_append_right _ List.mem_cons_self

def onLine : Terminator → LineBreak
  | lineBreak w => w
  | semicolon before _ after =>
    ⟨⟨before.bytes ++ lineFeed :: after.bytes, isBlankByte_around⟩, lineFeed_mem_around⟩

theorem length_onLine (e : Terminator) : e.onLine.bytes.length = e.bytes.length := by
  cases e <;> simp [onLine, bytes]

theorem head?_bytes (e : Terminator) (more : Bytes) :
    ∀ b ∈ (e.bytes ++ more).head?, isWordEnd b = true := by
  intro b hb
  cases e with
  | lineBreak w => exact isWordEnd_of_isBlankByte (head?_lineBreak w more b hb)
  | semicolon before inline after =>
    cases hw : before.bytes with
    | nil =>
      obtain rfl : semicolonByte = b := by simpa [bytes, hw] using hb
      decide
    | cons c cs =>
      obtain rfl : c = b := by simpa [bytes, hw] using hb
      exact isWordEnd_of_isBlankByte (before.blank c (by simp [hw]))

end Terminator

def endedBytes (decls : List (Declaration × Terminator)) : Bytes :=
  decls.flatMap fun (d, e) => d.bytes ++ e.bytes

theorem endedBytes_cons (d : Declaration) (e : Terminator) (decls : List (Declaration × Terminator)) :
    endedBytes ((d, e) :: decls) = d.bytes ++ (e.bytes ++ endedBytes decls) := by
  simp [endedBytes]

def onLines (decls : List (Declaration × Terminator)) : List (Declaration × LineBreak) :=
  decls.map fun (d, e) => (d, e.onLine)

theorem length_declBytes_onLines (decls : List (Declaration × Terminator)) :
    (declBytes (onLines decls)).length = (endedBytes decls).length := by
  induction decls with
  | nil => rfl
  | cons x decls ih =>
    simp only [declBytes, onLines, endedBytes] at ih
    simp [declBytes, onLines, endedBytes, ih, Terminator.length_onLine]

def seen : List (Declaration × Terminator) → List (Declaration × Terminator)
  | [] => []
  | (d, e) :: decls => (d, e) :: if e.isSemicolon then [] else seen decls

def hidden : List (Declaration × Terminator) → List (Declaration × Terminator)
  | [] => []
  | (_, e) :: decls => if e.isSemicolon then decls else hidden decls

theorem seen_append_hidden (decls : List (Declaration × Terminator)) :
    seen decls ++ hidden decls = decls := by
  induction decls with
  | nil => rfl
  | cons x decls ih =>
    obtain ⟨d, e⟩ := x
    cases h : e.isSemicolon <;> simp [seen, hidden, h, ih]

def Declaration.paths : Declaration → List String
  | single _ s => [s.path.text]
  | empty _ _ => []
  | block _ b => b.first.path.text :: b.more.map (·.2.path.text)

theorem map_path_recordsFrom (offset : Nat) (s : Spec) (more : List (LineBreak × Spec)) :
    (Block.recordsFrom offset s more).map Record.path =
      s.path.text :: more.map (·.2.path.text) := by
  induction more generalizing offset s with
  | nil => rfl
  | cons x more ih =>
    obtain ⟨w, s'⟩ := x
    rw [Block.recordsFrom, List.map_cons, ih]
    rfl

theorem Declaration.map_path_records (offset : Nat) (d : Declaration) :
    (d.records offset).map Record.path = d.paths := by
  cases d with
  | single gap s => rfl
  | empty gap inner => rfl
  | block gap b => exact map_path_recordsFrom _ b.first b.more

theorem declRecords_onLines_cons (offset : Nat) (d : Declaration) (e : Terminator)
    (decls : List (Declaration × Terminator)) :
    declRecords offset (onLines ((d, e) :: decls)) =
      d.records offset ++ declRecords (offset + d.bytes.length + e.bytes.length) (onLines decls) := by
  rw [← e.length_onLine]
  rfl

theorem map_path_declRecords (offset : Nat) (decls : List (Declaration × Terminator)) :
    (declRecords offset (onLines decls)).map Record.path = decls.flatMap (·.1.paths) := by
  induction decls generalizing offset with
  | nil => rfl
  | cons x decls ih =>
    obtain ⟨d, e⟩ := x
    rw [declRecords_onLines_cons, List.map_append, Declaration.map_path_records, ih, List.flatMap_cons]

theorem declRecords_append (offset : Nat) (xs ys : List (Declaration × LineBreak)) :
    declRecords offset (xs ++ ys) =
      declRecords offset xs ++ declRecords (offset + (declBytes xs).length) ys := by
  induction xs generalizing offset with
  | nil => rfl
  | cons x xs ih =>
    obtain ⟨d, w⟩ := x
    simp [declRecords, declBytes, ih, Nat.add_assoc]

end Header

structure TerminatedHeader where
  lead : Header.Blanks
  gap : Header.Space
  name : Header.Name
  stop : Header.Terminator
  decls : List (Header.Declaration × Header.Terminator)

namespace TerminatedHeader

open Header (Declaration Terminator packageBytes declRecords)

def clauseBytes (h : TerminatedHeader) : Bytes :=
  h.lead.bytes ++ (packageBytes ++ (h.gap.bytes ++ (h.name.bytes ++ h.stop.bytes)))

def bytes (h : TerminatedHeader) : Bytes := h.clauseBytes ++ Header.endedBytes h.decls

/-- The same header with a line break after each item. -/
def onLines (h : TerminatedHeader) : Header :=
  ⟨h.lead, h.gap, h.name, h.stop.onLine, Header.onLines h.decls⟩

theorem length_clauseBytes_onLines (h : TerminatedHeader) :
    h.onLines.clauseBytes.length = h.clauseBytes.length := by
  simp [onLines, Header.clauseBytes, clauseBytes, Terminator.length_onLine]

theorem length_bytes_onLines (h : TerminatedHeader) : h.onLines.bytes.length = h.bytes.length := by
  rw [Header.bytes, List.length_append, length_clauseBytes_onLines, bytes, List.length_append]
  exact congrArg _ (Header.length_declBytes_onLines h.decls)

def seen (h : TerminatedHeader) : List (Declaration × Terminator) :=
  if h.stop.isSemicolon then [] else Header.seen h.decls

def hidden (h : TerminatedHeader) : List (Declaration × Terminator) :=
  if h.stop.isSemicolon then h.decls else Header.hidden h.decls

theorem seen_append_hidden (h : TerminatedHeader) : h.seen ++ h.hidden = h.decls := by
  unfold seen hidden
  split
  · rfl
  · exact Header.seen_append_hidden h.decls

def seenRecords (h : TerminatedHeader) : List Record :=
  declRecords h.clauseBytes.length (Header.onLines h.seen)

theorem seenRecords_prefix (h : TerminatedHeader) : h.seenRecords <+: h.onLines.records := by
  have hdecls : h.onLines.decls = Header.onLines h.seen ++ Header.onLines h.hidden := by
    rw [Header.onLines, Header.onLines, ← List.map_append, seen_append_hidden]
    rfl
  rw [Header.records, hdecls, length_clauseBytes_onLines, Header.declRecords_append]
  exact List.prefix_append _ _

end TerminatedHeader

namespace Source

open Header (Declaration Terminator semicolonByte packageBytes endedBytes onLines)

variable {start : Mark} {k k' : Column} {n : Nat}

theorem Mark.past_congr {m : Mark} {a b : Bytes} (h : a.length = b.length) : m.past a = m.past b := by
  rw [Mark.past, Mark.past, h]

theorem Mark.offset_add_length_past {m : Mark} {a b : Bytes} (h : m.rest = a ++ b) :
    (m.past a).offset + (m.past a).rest.length = m.offset + m.rest.length := by
  rw [Mark.offset_past h, Mark.rest_past h, h, List.length_append, Nat.add_assoc]

def terminatorSpots (m : Mark) : Terminator → List Spot
  | .lineBreak _ => []
  | .semicolon before _ _ => [(m.past before.bytes).toSpot]

theorem Pending.reads_semicolon {s : State} {item : Tree} {w more : Bytes}
    (h : Pending start terminators n k ((s, item) :: k')) (hn : n ≤ 20) (hs : s ∈ [5, 23])
    (hpos : 0 < (k.mark start).offset) (hw : ∀ b ∈ w, isBlankByte b = true) (hline : lineFeed ∉ w)
    (hrest : (k.mark start).rest = w ++ ([semicolonByte] ++ more)) :
    Reads start 1 k ((17, (k.mark start).token .semicolon w [semicolonByte]) :: (s, item) :: k') := by
  have hentry : ∀ s ∈ [5, 23], (s, .semicolon, 17) ∈ Automaton.shiftEntries := by decide
  have hblank : ∀ b ∈ w, blankIn (Automaton.mode k.state) b = true := by
    intro b hb
    have hne : b ≠ lineFeed := fun heq => hline (heq ▸ hb)
    simp [blankIn, hw b hb, hne]
  have hmode := h.mode
  refine .one (.of_forms ⟨_, readToken_sign hrest (Mark.skipByteOrderMark_of_pos hpos)
    (tightSymbolAt?_eq_none ?_ _) hblank (by decide) ?_ (by decide)⟩ rfl (h.forms _ (by decide))
    (Automaton.shift_entry (hentry s hs))) hn (Mark.offset_lt_token hrest (by simp))
  · simp only [List.mem_cons, List.not_mem_nil, or_false] at hmode ⊢
    omega
  · simp only [List.mem_cons, List.not_mem_nil, or_false] at hmode
    rcases hmode with hmode | hmode <;> rw [hmode] <;> cases more <;> rfl

theorem Pending.reads_terminator {s : State} {item : Tree} {e : Terminator} {more : Bytes}
    (h : Pending start terminators n k ((s, item) :: k')) (hn : n ≤ 20) (hs : s ∈ [5, 23])
    (hpos : 0 < (k.mark start).offset) (hrest : (k.mark start).rest = e.bytes ++ more)
    (hmore : ∀ b ∈ more.head?, b ≠ lineFeed) :
    ∃ feed, Reads start 1 k ((17, feed) :: (s, item) :: k') ∧
      feed.Holds (terminatorSpots (k.mark start) e) [] ∧
      feed.stop.Before ((k.mark start).past e.bytes) ∧ 0 < feed.stop.offset := by
  have hpassed : ∀ {feed : Tree}, Reads start 1 k ((17, feed) :: (s, item) :: k') →
      0 < feed.stop.offset := by
    intro feed hreads
    have hle := hreads.le_offset
    rw [Column.mark_cons] at hle
    omega
  cases e with
  | lineBreak w =>
    have hs' : s ∈ [5, 23, 46] := (by decide : [5, 23] ⊆ [5, 23, 46]) hs
    obtain ⟨feed, hreads, hfeed, hat⟩ :=
      (h.closes (by decide)).reads_lineBreak hn hs' hpos hrest hmore
    exact ⟨feed, hreads, hfeed, hat, hpassed hreads⟩
  | semicolon before inline after =>
    have hrest' : (k.mark start).rest =
        before.bytes ++ ([semicolonByte] ++ (after.bytes ++ more)) := by
      simpa [Terminator.bytes] using hrest
    have hreads := h.reads_semicolon hn hs hpos before.blank inline hrest'
    refine ⟨_, hreads, ⟨⟨_, _, Tree.covers_token _ _ _ _⟩, Tree.others_of_item rfl rfl⟩, ?_,
      hpassed hreads⟩
    rw [Mark.token_stop]
    refine ⟨after.bytes, after.blank, ?_, ?_⟩
    · rw [Mark.rest_past hrest, Mark.rest_past (Mark.rest_past hrest')]
    · simp [Mark.past_past, Terminator.bytes]

theorem Gathered.reads_ended {os : List Spot} {es : List Event} {m : Mark} {d : Declaration}
    {e : Terminator} {more : Bytes} (h : Gathered start k os es) (hat : (k.mark start).Before m)
    (hrest : m.rest = d.bytes ++ (e.bytes ++ more)) (hmore : ∀ b ∈ more.head?, b ≠ lineFeed) :
    ∃ l k₁, Reads start l k k₁ ∧
      Gathered start k₁ (os ++ terminatorSpots (m.past d.bytes) e) (es ++ declEvents m d) ∧
      (k₁.mark start).Before ((m.past d.bytes).past e.bytes) := by
  obtain ⟨l, n, k₁, items, decl, hreads, hn, hpending, hitems, hdecl, hmark, hpos⟩ :=
    h.reads_import hat hrest
  have hrest₁ : (k₁.mark start).rest = e.bytes ++ more := by rw [hmark, Mark.rest_past hrest]
  obtain ⟨feed, hfed, hfeed, hbefore, hpassed⟩ :=
    hpending.reads_terminator (by omega) (by decide) hpos hrest₁ hmore
  rw [hmark] at hfeed hbefore
  exact ⟨_, _, hreads.trans hfed, by simpa using gathered_next hitems hdecl hfeed hpassed, hbefore⟩

/-- Where the terminators of declarations, of which the first stands at the mark, have items of their
own. -/
def endedSpots (m : Mark) : List (Declaration × Terminator) → List Spot
  | [] => []
  | (d, e) :: decls =>
    terminatorSpots (m.past d.bytes) e ++ endedSpots ((m.past d.bytes).past e.bytes) decls

theorem declsEvents_onLines_cons (m : Mark) (d : Declaration) (e : Terminator)
    (decls : List (Declaration × Terminator)) :
    declsEvents m (onLines ((d, e) :: decls)) =
      declEvents m d ++ declsEvents ((m.past d.bytes).past e.bytes) (onLines decls) := by
  rw [← Mark.past_congr e.length_onLine]
  rfl

theorem head?_endedBytes (decls : List (Declaration × Terminator)) :
    ∀ b ∈ (endedBytes decls).head?, b ≠ lineFeed := by
  cases decls with
  | nil => simp [endedBytes]
  | cons x decls =>
    rw [Header.endedBytes_cons]
    exact head?_declaration x.1 _

theorem Gathered.reads_all_ended {os : List Spot} {es : List Event} {m : Mark}
    {decls : List (Declaration × Terminator)} (h : Gathered start k os es)
    (hat : (k.mark start).Before m) (hrest : m.rest = endedBytes decls) :
    ∃ l k₁, Reads start l k k₁ ∧
      Gathered start k₁ (os ++ endedSpots m decls) (es ++ declsEvents m (onLines decls)) ∧
      (k₁.mark start).Before (m.past (endedBytes decls)) := by
  induction decls generalizing k os es m with
  | nil => exact ⟨0, k, .refl k, by simpa [endedSpots, declsEvents, onLines] using h, hat⟩
  | cons x decls ih =>
    obtain ⟨d, e⟩ := x
    rw [Header.endedBytes_cons] at hrest
    obtain ⟨l, k₁, hreads, hgathered, hat₁⟩ := h.reads_ended hat hrest (head?_endedBytes decls)
    obtain ⟨l', k₂, hreads', hgathered', hat₂⟩ :=
      ih hgathered hat₁ (Mark.rest_past (Mark.rest_past hrest))
    refine ⟨_, k₂, hreads.trans hreads', ?_, ?_⟩
    · rw [declsEvents_onLines_cons, endedSpots]
      simpa using hgathered'
    · rwa [Header.endedBytes_cons, ← Mark.past_past, ← Mark.past_past]

def headerSpots (m : Mark) (h : TerminatedHeader) : List Spot :=
  terminatorSpots (m.past (h.lead.bytes ++ (packageBytes ++ (h.gap.bytes ++ h.name.bytes)))) h.stop ++
    endedSpots (m.past h.clauseBytes) h.decls

theorem headerEvents_onLines (m : Mark) (h : TerminatedHeader) : headerEvents m h.onLines =
    packageEvent (m.past h.lead.bytes) h.gap h.name ::
      declsEvents (m.past h.clauseBytes) (onLines h.decls) := by
  rw [← Mark.past_congr h.length_clauseBytes_onLines]
  rfl

theorem events_readSource_terminated (h : TerminatedHeader) : (readSource h.bytes).events =
    (headerSpots (.ofSource h.bytes) h).map Event.otherItem ++
      headerEvents (.ofSource h.bytes) h.onLines := by
  let start := Mark.ofSource h.bytes
  let before := h.lead.bytes ++ (packageBytes ++ (h.gap.bytes ++ h.name.bytes))
  have hrest : start.rest = h.lead.bytes ++ (packageBytes ++ (h.gap.bytes ++ (h.name.bytes ++
      (h.stop.bytes ++ endedBytes h.decls)))) := by
    simp [start, Mark.ofSource, TerminatedHeader.bytes, TerminatedHeader.clauseBytes]
  obtain ⟨l, k, clause, hreads, hpending, hholds, hmark, hpos, -⟩ :=
    reads_clause hrest (h.stop.head?_bytes _)
  have hrest₁ : (k.mark start).rest = h.stop.bytes ++ endedBytes h.decls := by
    rw [hmark]
    apply Mark.rest_past
    simpa using hrest
  obtain ⟨feed, hfed, hfeed, hat, hpassed⟩ :=
    hpending.reads_terminator (by decide) (by decide) hpos hrest₁ (head?_endedBytes _)
  have hstop : (k.mark start).past h.stop.bytes = start.past h.clauseBytes := by
    rw [hmark, Mark.past_past]
    simp [TerminatedHeader.clauseBytes]
  rw [hstop] at hat
  rw [hmark] at hfeed
  have hgathered : Gathered start [(17, feed), (5, clause)] _ _ :=
    gathered_first hholds hfeed hpassed
  obtain ⟨l', k₂, hdecls, hgathered', hat'⟩ := hgathered.reads_all_ended hat
    (by rw [← hstop, Mark.rest_past hrest₁])
  rw [Mark.past_past] at hat'
  rw [hgathered'.events_readSource (hreads.trans (hfed.trans hdecls)) hat', headerEvents_onLines]
  simp [headerSpots, start]

theorem headerLimit_items {size : Nat} {os : List Spot} {es : List Event}
    (h : ∀ e ∈ es, e.InHeader) : headerLimit size (os.map Event.otherItem ++ es) =
      (os.map (·.offset)).foldl min size := by
  have hnone : headerLimit ((os.map (·.offset)).foldl min size) es = _ := headerLimit_eq h
  rw [headerLimit] at hnone ⊢
  rw [List.filterMap_append, List.foldl_append, List.filterMap_map]
  refine Eq.trans ?_ hnone
  exact congrArg (fun xs => List.foldl min (List.foldl min size xs) _)
    (congrFun List.filterMap_eq_map os)

theorem headerFaults_items {limit : Nat} {os : List Spot} {es : List Event}
    (h : ∀ e ∈ es, e.InHeader) : headerFaults limit (os.map Event.otherItem ++ es) = [] := by
  rw [headerFaults, List.filterMap_eq_nil_iff]
  intro e he
  rcases List.mem_append.mp he with he | he
  · obtain ⟨s, -, rfl⟩ := List.mem_map.mp he
    rfl
  · have := h e he
    cases e <;> first | rfl | exact this.elim

theorem headerRecords_items {limit : Nat} {os : List Spot} {es : List Event} :
    headerRecords limit (os.map Event.otherItem ++ es) = headerRecords limit es := by
  rw [headerRecords, List.filterMap_append, List.filterMap_map]
  refine (congrArg (· ++ _) (List.filterMap_eq_nil_iff.mpr ?_)).trans (List.nil_append _)
  exact fun s _ => rfl

/-- A source in which items of other kinds stand among the parts of a header. -/
theorem importsOfEvents_items {size : Nat} {os : List Spot} {es : List Event}
    (hpackage : hasPackageClause es = true) (h : ∀ e ∈ es, e.InHeader) :
    importsOfEvents size (os.map Event.otherItem ++ es) =
      .ok (headerRecords ((os.map (·.offset)).foldl min size) es) := by
  have hclause : hasPackageClause (os.map Event.otherItem ++ es) = true := by
    rw [hasPackageClause, List.any_append, Bool.or_eq_true]
    exact .inr hpackage
  simp [importsOfEvents, headerLimit_items h, hclause, headerFaults_items h, headerRecords_items]

end Source

namespace Header

theorem start_records {offset : Nat} {d : Declaration} {r : Record} (hr : r ∈ d.records offset) :
    (offset : Int) ≤ r.start ∧ r.start < offset + d.bytes.length := by
  let a : Bytes := List.replicate offset 0
  have ha : a.length = offset := List.length_replicate
  rw [← ha, ← declPieces_records, List.mem_filterMap] at hr
  obtain ⟨p, hp, hrecord⟩ := hr
  obtain ⟨hbehind, hwithin⟩ := declPieces_lie a d p hp
  have hlength := hwithin.length_le
  cases p with
  | clause b t => cases hrecord
  | declaration b t => cases hrecord
  | spec b s =>
    cases hrecord
    have hpos : 0 < s.bytes.length := by
      rw [Spec.bytes, List.length_append]
      exact Nat.add_pos_right _ (Nat.zero_lt_succ _)
    simp only [Piece.before, Piece.text, List.length_append] at hbehind hlength
    simp only [Spec.record]
    omega

theorem start_declRecords {offset : Nat} {decls : List (Declaration × LineBreak)} {r : Record}
    (hr : r ∈ declRecords offset decls) : (offset : Int) ≤ r.start := by
  induction decls generalizing offset with
  | nil => cases hr
  | cons x decls ih =>
    obtain ⟨d, w⟩ := x
    rcases List.mem_append.mp hr with hr | hr
    · exact (start_records hr).1
    · have := ih hr
      omega

theorem le_endedSpots {m : Mark} {decls : List (Declaration × Terminator)} {more : Bytes}
    (hrest : m.rest = endedBytes decls ++ more) :
    ∀ s ∈ endedSpots m decls, m.offset ≤ s.offset := by
  induction decls generalizing m with
  | nil => simp [endedSpots]
  | cons x decls ih =>
    obtain ⟨d, e⟩ := x
    rw [endedBytes_cons, List.append_assoc, List.append_assoc] at hrest
    have hd := Mark.offset_past hrest
    have he := Mark.offset_past (Mark.rest_past hrest)
    intro s hs
    rcases List.mem_append.mp hs with hs | hs
    · cases e with
      | lineBreak w => cases hs
      | semicolon before inline after =>
        obtain rfl := List.mem_singleton.mp hs
        have hin := Mark.rest_past hrest
        rw [Terminator.bytes, List.append_assoc] at hin
        have := Mark.offset_past hin
        omega
    · have := ih (Mark.rest_past (Mark.rest_past hrest)) s hs
      omega

def firstOffset (size : Nat) (spots : List Spot) : Nat := (spots.map (·.offset)).foldl min size

theorem le_firstOffset {size n : Nat} {spots : List Spot} (hsize : n ≤ size)
    (h : ∀ s ∈ spots, n ≤ s.offset) : n ≤ firstOffset size spots := by
  by_contra hlt
  have hle : firstOffset size spots ≤ n - 1 := by omega
  rcases foldl_min_le_iff.mp hle with hle | ⟨x, hx, hle⟩
  · omega
  · obtain ⟨s, hs, rfl⟩ := List.mem_map.mp hx
    have := h s hs
    omega

theorem firstOffset_cons {size : Nat} {s : Spot} {spots : List Spot} (hsize : s.offset ≤ size)
    (h : ∀ s' ∈ spots, s.offset ≤ s'.offset) : firstOffset size (s :: spots) = s.offset := by
  apply Nat.le_antisymm
  · exact foldl_min_le_iff.mpr (.inr ⟨s.offset, List.mem_cons_self, Nat.le_refl _⟩)
  · exact le_firstOffset hsize (List.forall_mem_cons.mpr ⟨Nat.le_refl _, h⟩)

theorem firstOffset_semicolon {size : Nat} {m : Mark} {before after : Blanks}
    {inline : lineFeed ∉ before.bytes} {decls : List (Declaration × Terminator)}
    (hrest : m.rest = (Terminator.semicolon before inline after).bytes ++ endedBytes decls)
    (hsize : m.offset + m.rest.length = size) :
    let e := Terminator.semicolon before inline after
    let first := firstOffset size (terminatorSpots m e ++ endedSpots (m.past e.bytes) decls)
    m.offset ≤ first ∧ first < (m.past e.bytes).offset := by
  intro e first
  have hin := hrest
  rw [Terminator.bytes, List.append_assoc] at hin
  have hbefore := Mark.offset_past hin
  have hpast : (m.past e.bytes).offset = _ := Mark.offset_past hrest
  have hlength : m.rest.length = e.bytes.length + (endedBytes decls).length := by
    rw [hrest, List.length_append]
  have hlong : e.bytes.length = before.bytes.length + (after.bytes.length + 1) := by
    simp [e, Terminator.bytes]
  have hfirst : first = (m.past before.bytes).offset := by
    refine firstOffset_cons (by show (m.past before.bytes).offset ≤ size; omega) fun s hs => ?_
    have := le_endedSpots (by rw [Mark.rest_past hrest, List.append_nil]) s hs
    show (m.past before.bytes).offset ≤ _
    omega
  omega

/-- The records of declarations that stand before the first semicolon are those of the declarations
that are seen. -/
theorem filter_declRecords {size : Nat} {m : Mark} {decls : List (Declaration × Terminator)}
    (hrest : m.rest = endedBytes decls) (hsize : m.offset + m.rest.length = size) :
    ((declRecords m.offset (onLines decls)).filter fun r =>
        decide (r.start < (firstOffset size (endedSpots m decls) : Int))) =
      declRecords m.offset (onLines (seen decls)) := by
  induction decls generalizing m with
  | nil => rfl
  | cons x decls ih =>
    obtain ⟨d, e⟩ := x
    rw [endedBytes_cons] at hrest
    let m' := (m.past d.bytes).past e.bytes
    have hin := Mark.rest_past hrest
    have hrest' : m'.rest = endedBytes decls := Mark.rest_past hin
    have hd := Mark.offset_past hrest
    have he : m'.offset = _ := Mark.offset_past hin
    have hsize₁ := (Mark.offset_add_length_past hrest).trans hsize
    have hsize₂ : m'.offset + m'.rest.length = size :=
      (Mark.offset_add_length_past hin).trans hsize₁
    have hsplit : ∀ decls, declRecords m.offset (onLines ((d, e) :: decls)) =
        d.records m.offset ++ declRecords m'.offset (onLines decls) := by
      intro decls
      rw [he, hd, declRecords_onLines_cons]
    -- the declaration itself stands before the semicolon in either case
    have hkept : (m.past d.bytes).offset ≤ firstOffset size (endedSpots m ((d, e) :: decls)) →
        (d.records m.offset).filter (fun r =>
          decide (r.start < (firstOffset size (endedSpots m ((d, e) :: decls)) : Int))) =
            d.records m.offset := by
      intro hle
      refine List.filter_eq_self.mpr fun r hr => decide_eq_true ?_
      have := start_records hr
      omega
    rw [hsplit, List.filter_append]
    cases e with
    | lineBreak w =>
      have hbehind : ∀ s ∈ endedSpots m' decls, m'.offset ≤ s.offset :=
        le_endedSpots (by rw [hrest', List.append_nil])
      have hle : m'.offset ≤ firstOffset size (endedSpots m' decls) :=
        le_firstOffset (by omega) hbehind
      have hspots : endedSpots m ((d, .lineBreak w) :: decls) = endedSpots m' decls := rfl
      have hseen : seen ((d, .lineBreak w) :: decls) = (d, .lineBreak w) :: seen decls := rfl
      rw [hkept (by rw [hspots]; omega), hseen, hsplit, hspots, ih hrest' hsize₂]
    | semicolon before inline after =>
      obtain ⟨hle, hlt⟩ := firstOffset_semicolon hin hsize₁
      have hseen : seen ((d, .semicolon before inline after) :: decls) =
          [(d, .semicolon before inline after)] := rfl
      rw [hkept hle, hseen, hsplit]
      refine congrArg _ (List.filter_eq_nil_iff.mpr fun r hr => ?_)
      have hstart := start_declRecords hr
      have hlt' : firstOffset size (endedSpots m ((d, .semicolon before inline after) :: decls)) <
          m'.offset := hlt
      simp only [decide_eq_true_eq]
      omega

end Header

/-- Of a header in which items end with a semicolon only the declarations that are seen count. -/
theorem sourceImports_terminated (h : TerminatedHeader) :
    sourceImports h.bytes = .ok h.seenRecords := by
  let start := Mark.ofSource h.bytes
  let m := start.past h.clauseBytes
  let before := h.lead.bytes ++ (Header.packageBytes ++ (h.gap.bytes ++ h.name.bytes))
  have hall : start.rest = h.clauseBytes ++ Header.endedBytes h.decls := rfl
  have hm : m.rest = Header.endedBytes h.decls := Mark.rest_past hall
  have hoffset : m.offset = h.clauseBytes.length := by
    rw [Mark.offset_past hall]
    exact Nat.zero_add _
  have hsize := (Mark.offset_add_length_past hall).trans (Nat.zero_add h.bytes.length)
  have hevents : sourceImports h.bytes = .ok (h.onLines.records.filter fun r =>
      decide (r.start < (Header.firstOffset h.bytes.length (headerSpots start h) : Int))) := by
    rw [sourceImports, events_readSource_terminated,
      importsOfEvents_items rfl inHeader_headerEvents,
      headerRecords_headerEvents _ _ (Nat.le_of_eq h.length_bytes_onLines)]
    rfl
  have hrecords : h.onLines.records = Header.declRecords m.offset (Header.onLines h.decls) := by
    rw [Header.records, h.length_clauseBytes_onLines, hoffset]
    rfl
  rw [hevents, hrecords, TerminatedHeader.seenRecords, TerminatedHeader.seen, ← hoffset]
  cases hstop : h.stop with
  | lineBreak w =>
    have hspots : headerSpots start h = endedSpots m h.decls := by
      rw [headerSpots, hstop]
      rfl
    rw [hspots, Header.filter_declRecords hm hsize]
    rfl
  | semicolon blanks inline after =>
    have hclause : start.rest = before ++ (h.stop.bytes ++ Header.endedBytes h.decls) := by
      rw [hall, TerminatedHeader.clauseBytes]
      simp [before]
    have hin := Mark.rest_past hclause
    have hpast : (start.past before).past h.stop.bytes = m := by
      rw [Mark.past_past]
      simp [before, m, TerminatedHeader.clauseBytes]
    have hbefore := (Mark.offset_add_length_past hclause).trans (Nat.zero_add h.bytes.length)
    rw [hstop] at hin hpast
    obtain ⟨-, hlt⟩ := Header.firstOffset_semicolon hin hbefore
    rw [hpast] at hlt
    have hspots : headerSpots start h =
        terminatorSpots (start.past before) (.semicolon blanks inline after) ++ endedSpots m h.decls := by
      rw [headerSpots, hstop]
    rw [hspots]
    refine congrArg _ (List.filter_eq_nil_iff.mpr fun r hr => ?_)
    have hstart := Header.start_declRecords hr
    simp only [decide_eq_true_eq]
    omega

/-- What ends an item matters: with a line break after each item all paths of a header are found, and
with semicolons those of the declarations up to the first semicolon. The two agree just if no
declaration behind it has a path. -/
theorem imports_up_to_first_semicolon (h : TerminatedHeader) :
    ∃ rs rs', sourceImports h.bytes = .ok rs ∧ sourceImports h.onLines.bytes = .ok rs' ∧
      rs <+: rs' ∧ rs.map Record.path = h.seen.flatMap (·.1.paths) ∧
      rs'.map Record.path = h.decls.flatMap (·.1.paths) ∧
      (rs.map Record.path = rs'.map Record.path ↔ ∀ x ∈ h.hidden, x.1.paths = []) := by
  have hseen : h.seenRecords.map Record.path = h.seen.flatMap (·.1.paths) :=
    Header.map_path_declRecords _ _
  have hall : h.onLines.records.map Record.path = h.decls.flatMap (·.1.paths) :=
    Header.map_path_declRecords _ _
  refine ⟨h.seenRecords, h.onLines.records, sourceImports_terminated h, sourceImports_header _,
    h.seenRecords_prefix, hseen, hall, ?_⟩
  rw [hseen, hall, ← h.seen_append_hidden, List.flatMap_append, List.self_eq_append_right,
    List.flatMap_eq_nil_iff]

namespace TerminatedHeader

open Header (oneSpace oneLineFeed spaceByte)

theorem isBlankByte_nil : ∀ b ∈ ([] : Bytes), isBlankByte b = true := by simp

theorem isWord_p : isWord [0x70] = true := by decide

theorem free_p : [0x70] ∉ Header.takenWords := by decide +kernel

theorem clean_a : ∀ c ∈ "a".toList, c ∉ ['"', '`', '\\', '\r', '\n', '\x00'] := by simp

/-- The header `package p; import "a"` on one line. -/
def clauseWithSemicolon : TerminatedHeader where
  lead := ⟨[], isBlankByte_nil⟩
  gap := oneSpace
  name := ⟨[0x70], isWord_p, free_p⟩
  stop := .semicolon ⟨[], isBlankByte_nil⟩ List.not_mem_nil oneSpace.toBlanks
  decls := [(.single oneSpace ⟨none, .quoted, ⟨"a", clean_a⟩⟩, .lineBreak oneLineFeed)]

end TerminatedHeader

/-- A semicolon behind the package clause hides every import. -/
theorem semicolon_hides_import : ∃ h : TerminatedHeader,
    h.bytes = Text.encodeUtf8 "package p; import \"a\"\n" ∧ sourceImports h.bytes = .ok [] ∧
      sourceImports h.onLines.bytes = .ok [⟨"a", 18, 21⟩] :=
  ⟨.clauseWithSemicolon, by decide +kernel, sourceImports_terminated _, sourceImports_header _⟩

end ImportGroups
