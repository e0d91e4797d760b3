import ImportGroups.Proofs.Body.Reading
import ImportGroups.Proofs.Header.Imports

/-!
The imports of a file with a body.

The imports are those of the header alone wherever the reader keeps the header: it finds there what it
finds in the header alone, and the first item of the body behind it. One thing in the body can still
spoil them, a fault that comes before the end of a package clause. A body of complete items has no
fault, and its imports and package clauses change nothing.
-/

namespace ImportGroups

open Text (Bytes)
open Header (LineBreak Declaration packageBytes spaceByte oneSpace oneLineFeed)
open Body (Item itemBytes)
open Source

namespace Source

theorem stop_headerEvents {m : Mark} {h : Header} {more : Bytes} (hrest : m.rest = h.bytes ++ more) :
    ∀ e ∈ headerEvents m h, e.start.offset ≤ e.stop.offset ∧
      e.stop.offset < m.offset + h.bytes.length := by
  intro e he
  rw [← headerPieces_event] at he
  obtain ⟨p, hp, rfl⟩ := List.mem_map.mp he
  obtain ⟨hwithin, hlt⟩ := headerPieces_lie h p hp
  obtain ⟨hstart, hstop⟩ := p.offset_event hrest hwithin
  omega

theorem headerEvents_ofSource (h : Header) (body : Bytes) :
    headerEvents (.ofSource (h.bytes ++ body)) h = headerEvents (.ofSource h.bytes) h := by
  rw [← headerPieces_event, ← headerPieces_event]
  apply List.map_congr_left
  intro p hp
  exact Piece.event_congr rfl rfl (List.append_nil _).symm (headerPieces_lie h p hp).1

theorem start_declEvents {m : Mark} {d : Declaration} {more : Bytes}
    (hrest : m.rest = d.bytes ++ more) :
    ∀ e ∈ declEvents m d, m.offset ≤ e.start.offset ∧ e.InHeader := by
  intro e he
  have hpieces : (declPieces [] d).map (Piece.event m) = declEvents m d := declPieces_event m [] d
  rw [← hpieces] at he
  obtain ⟨p, hp, rfl⟩ := List.mem_map.mp he
  have hwithin : p.before ++ p.text <+: d.bytes := (declPieces_lie [] d p hp).within
  obtain ⟨hstart, _⟩ := p.offset_event hrest hwithin
  exact ⟨by omega, p.inHeader_event m⟩

theorem start_itemsShow {m : Mark} {items : List (Item × LineBreak)} {more : Bytes}
    (hrest : m.rest = itemBytes items ++ more) :
    (∀ s ∈ (itemsShow m items).1, m.offset ≤ s.offset) ∧
      ∀ e ∈ (itemsShow m items).2, m.offset ≤ e.start.offset ∧ e.InHeader := by
  induction items generalizing m with
  | nil => simp [itemsShow]
  | cons x items ih =>
    obtain ⟨x, w⟩ := x
    have hitem : m.rest = x.bytes ++ (w.bytes ++ (itemBytes items ++ more)) := by
      simpa [itemBytes] using hrest
    have hoffset₁ := Mark.offset_past hitem
    have hoffset₂ := Mark.offset_past (Mark.rest_past hitem)
    obtain ⟨hspots, hevents⟩ := ih (Mark.rest_past (Mark.rest_past hitem))
    constructor
    · intro s hs
      rcases List.mem_append.mp hs with hs | hs
      · cases x with
        | other d =>
          obtain rfl : s = m.toSpot := by simpa [itemSpots] using hs
          exact Nat.le_refl _
        | imports d => simp [itemSpots] at hs
        | package gap name => simp [itemSpots] at hs
      · have := hspots s hs
        omega
    · intro e he
      rcases List.mem_append.mp he with he | he
      · cases x with
        | other d => simp [itemEvents] at he
        | imports d => exact start_declEvents hitem e he
        | package gap name =>
          obtain rfl : e = packageEvent m gap name := by simpa [itemEvents] using he
          exact ⟨Nat.le_refl _, trivial⟩
      · obtain ⟨hle, hin⟩ := hevents e he
        exact ⟨by omega, hin⟩

def Event.isItemAt (offset : Nat) : Event → Bool
  | otherItem start => start.offset == offset
  | _ => false

structure Kept (size : Nat) (header es : List Event) : Prop where
  before : es.filter (fun e => decide (e.start.offset < size)) = header
  item : ∃ e ∈ es, e.isItemAt size = true

instance (size : Nat) (header es : List Event) : Decidable (Kept size header es) :=
  decidable_of_iff (es.filter (fun e => decide (e.start.offset < size)) = header ∧
    ∃ e ∈ es, e.isItemAt size = true)
    ⟨fun h => ⟨h.1, h.2⟩, fun h => ⟨h.before, h.item⟩⟩

def Event.isFault : Event → Bool
  | fault _ _ => true
  | _ => false

def Event.isClause : Event → Bool
  | packageClause _ _ => true
  | _ => false

def FaultsBehindClauses (es : List Event) : Prop :=
  ∀ e ∈ es, ∀ f ∈ es, e.isFault = true → f.isClause = true → f.stop.offset < e.start.offset

instance (es : List Event) : Decidable (FaultsBehindClauses es) :=
  inferInstanceAs (Decidable (∀ e ∈ es, ∀ f ∈ es, _ → _ → _))

namespace Kept

variable {size total : Nat} {header es : List Event}

theorem mem_header (h : Kept size header es) {e : Event} :
    e ∈ header ↔ e ∈ es ∧ e.start.offset < size := by
  rw [← h.before, List.mem_filter, decide_eq_true_eq]

theorem headerLimit (h : Kept size header es) (hin : ∀ e ∈ header, e.InHeader)
    (htotal : size ≤ total) : headerLimit total es = size := by
  have hitem : ∃ spot, Event.otherItem spot ∈ es ∧ spot.offset = size := by
    obtain ⟨e, he, hat⟩ := h.item
    cases e with
    | otherItem spot => exact ⟨spot, he, by simpa [Event.isItemAt] using hat⟩
    | _ => simp [Event.isItemAt] at hat
  have hothers : ∀ spot, Event.otherItem spot ∈ es → size ≤ spot.offset := by
    intro spot hspot
    by_contra hlt
    exact hin _ (h.mem_header.mpr ⟨hspot, by simpa [Event.start] using hlt⟩)
  unfold Source.headerLimit
  apply Nat.le_antisymm
  · obtain ⟨spot, hspot, hsize⟩ := hitem
    refine foldl_min_le_iff.mpr (.inr ⟨spot.offset, ?_, Nat.le_of_eq hsize⟩)
    exact List.mem_filterMap.mpr ⟨_, hspot, rfl⟩
  · rcases foldl_min_le_iff.mp (Nat.le_refl _) with hle | ⟨x, hx, hle⟩
    · exact Nat.le_trans htotal hle
    · obtain ⟨e, he, hsome⟩ := List.mem_filterMap.mp hx
      cases e with
      | otherItem spot =>
        obtain rfl : spot.offset = x := by simpa using hsome
        exact Nat.le_trans (hothers spot he) hle
      | _ => simp at hsome

theorem headerRecords (h : Kept size header es) :
    headerRecords size es = headerRecords size header := by
  rw [← h.before, Source.headerRecords, Source.headerRecords, List.filterMap_filter]
  congr 1
  funext e
  cases e with
  | importSpec start path stop literal =>
    by_cases hlt : start.offset < size <;> simp [Event.start, hlt]
  | _ => simp

theorem mem_headerStops (h : Kept size header es) (hstops : ∀ e ∈ header, e.stop.offset < size) {stop : Nat}
    (hle : size ≤ stop) :
    stop ∈ headerStops size es ↔ ∃ a b, Event.packageClause a b ∈ es ∧ b.offset = stop := by
  rw [headerStops, List.mem_filterMap]
  constructor
  · rintro ⟨e, he, hsome⟩
    cases e with
    | packageClause a b => exact ⟨a, b, he, by simpa using hsome⟩
    | importDeclaration a b =>
      by_cases hlt : a.offset < size
      · obtain rfl : b.offset = stop := by simpa [hlt] using hsome
        have hstop := hstops _ (h.mem_header.mpr ⟨he, hlt⟩)
        simp only [Event.stop] at hstop
        omega
      · simp [hlt] at hsome
    | _ => simp at hsome
  · rintro ⟨a, b, he, rfl⟩
    exact ⟨_, he, rfl⟩

theorem headerFaults_eq_nil_iff (h : Kept size header es) (hin : ∀ e ∈ header, e.InHeader)
    (hstops : ∀ e ∈ header, e.stop.offset < size) (hpos : 0 < size) :
    headerFaults size es = [] ↔ FaultsBehindClauses es := by
  have hbehind : ∀ spot b, Event.fault spot b ∈ es → size ≤ spot.offset := by
    intro spot b hspot
    by_contra hlt
    exact hin _ (h.mem_header.mpr ⟨hspot, by simpa [Event.start] using hlt⟩)
  rw [headerFaults, List.filterMap_eq_nil_iff]
  constructor
  · intro hnone e he f hf hfault hclause
    cases e with
    | fault spot b =>
      cases f with
      | packageClause start stop =>
        have hout := hnone _ he
        by_contra hle
        simp only [Event.start, Event.stop] at hle
        have hmem : stop.offset ∈ headerStops size es := List.mem_filterMap.mpr ⟨_, hf, rfl⟩
        have hend : spot.offset ≤ headerEnd size es :=
          le_foldl_max_iff.mpr (.inr ⟨_, hmem, by omega⟩)
        simp [hend] at hout
      | _ => simp [Event.isClause] at hclause
    | _ => simp [Event.isFault] at hfault
  · intro hall e he
    cases e with
    | fault spot b =>
      have hsize := hbehind spot b he
      have hend : ¬spot.offset ≤ headerEnd size es := by
        intro hle
        rcases le_foldl_max_iff.mp hle with hzero | ⟨stop, hstop, hle⟩
        · omega
        · obtain ⟨a, c, hclause, rfl⟩ := (h.mem_headerStops hstops (by omega)).mp hstop
          have hlt : c.offset < spot.offset := hall _ he _ hclause rfl rfl
          omega
      simp [hend, Nat.not_lt.mpr hsize]
    | _ => rfl

theorem importsOfEvents_eq_iff (h : Kept size header es) (hin : ∀ e ∈ header, e.InHeader)
    (hstops : ∀ e ∈ header, e.stop.offset < size) (hpackage : hasPackageClause header = true) (htotal : size ≤ total) :
    importsOfEvents total es = .ok (Source.headerRecords size header) ↔ FaultsBehindClauses es := by
  obtain ⟨e, he, hclause⟩ := List.any_eq_true.mp hpackage
  have hpos : 0 < size := Nat.zero_lt_of_lt (hstops e he)
  have hpackage' : hasPackageClause es = true :=
    List.any_eq_true.mpr ⟨e, (h.mem_header.mp he).1, hclause⟩
  rw [← h.headerFaults_eq_nil_iff hin hstops hpos]
  simp only [importsOfEvents, h.headerLimit hin htotal, hpackage', h.headerRecords]
  cases headerFaults size es with
  | nil => simp
  | cons spot spots => simp

end Kept

/-- One version reads a header with complete items behind it. -/
theorem straight_items (h : Header) (items : List (Item × LineBreak)) :
    let source := h.bytes ++ itemBytes items
    let shown := itemsShow ((Mark.ofSource source).past h.bytes) items
    ∃ tree, Straight source tree ∧ tree.events =
      shown.1.map Event.otherItem ++ (headerEvents (.ofSource source) h ++ shown.2) := by
  intro source shown
  have hrest : (Mark.ofSource source).rest = h.bytes ++ itemBytes items := rfl
  obtain ⟨l, k, hreads, hgathered, hat⟩ := reads_header hrest (head?_itemBytes items)
  obtain ⟨l', k', hreads', hgathered', hat'⟩ := hgathered.reads_items hat (Mark.rest_past hrest)
  rw [Mark.past_past] at hat'
  simpa using hgathered'.straight (hreads.trans hreads') hat'

theorem events_readSource_items (h : Header) (items : List (Item × LineBreak)) :
    let source := h.bytes ++ itemBytes items
    let shown := itemsShow ((Mark.ofSource source).past h.bytes) items
    (readSource source).events =
      shown.1.map Event.otherItem ++ (headerEvents (.ofSource source) h ++ shown.2) := by
  intro source shown
  obtain ⟨tree, hstraight, hevents⟩ := straight_items h items
  rw [readSource, hstraight.readTree]
  exact hevents

end Source

/-- In a file with the body the reader finds the header that it finds without it, and then the first
item of the body. -/
def KeepsHeader (h : Header) (body : Bytes) : Prop :=
  Kept h.bytes.length (readSource h.bytes).events (readSource (h.bytes ++ body)).events

instance (h : Header) (body : Bytes) : Decidable (KeepsHeader h body) :=
  inferInstanceAs (Decidable (Kept _ _ _))

theorem sourceImports_eq_iff {h : Header} {body : Bytes} (hkeeps : KeepsHeader h body) :
    sourceImports (h.bytes ++ body) = .ok h.records ↔
      FaultsBehindClauses (readSource (h.bytes ++ body)).events := by
  rw [KeepsHeader, events_readSource] at hkeeps
  have hrest : (Mark.ofSource h.bytes).rest = h.bytes ++ [] := (List.append_nil _).symm
  have hstops : ∀ e ∈ headerEvents (.ofSource h.bytes) h, e.stop.offset < h.bytes.length := by
    intro e he
    simpa [Mark.ofSource] using (stop_headerEvents hrest e he).2
  rw [sourceImports, ← headerRecords_header]
  exact hkeeps.importsOfEvents_eq_iff inHeader_headerEvents hstops rfl (by simp)

section Items

variable (h : Header) (d : Body.Declaration) (w : LineBreak) (items : List (Item × LineBreak))

theorem keepsHeader_items : KeepsHeader h (itemBytes ((.other d, w) :: items)) := by
  let body := itemBytes ((.other d, w) :: items)
  let m := (Mark.ofSource (h.bytes ++ body)).past h.bytes
  have hrest : (Mark.ofSource (h.bytes ++ body)).rest = h.bytes ++ body := rfl
  have hm : m.offset = h.bytes.length := (Mark.offset_past hrest).trans (Nat.zero_add _)
  have hbody : m.rest = body ++ [] := (Mark.rest_past hrest).trans (List.append_nil _).symm
  obtain ⟨hspots, hevents⟩ := start_itemsShow hbody
  rw [KeepsHeader, events_readSource_items, events_readSource]
  refine ⟨?_, .otherItem m.toSpot, ?_, by simp [Event.isItemAt, hm]⟩
  · have hbefore : ∀ e ∈ headerEvents (.ofSource (h.bytes ++ body)) h,
        e.start.offset < h.bytes.length := by
      intro e he
      have := stop_headerEvents hrest e he
      simp only [Mark.ofSource] at this
      omega
    rw [List.filter_append, List.filter_append, List.filter_eq_nil_iff.mpr,
      List.filter_eq_self.mpr, List.filter_eq_nil_iff.mpr, List.nil_append, List.append_nil,
      headerEvents_ofSource]
    · intro e he
      have := (hevents e he).1
      simp only [decide_eq_true_eq]
      omega
    · intro e he
      exact decide_eq_true (hbefore e he)
    · intro e he
      obtain ⟨s, hs, rfl⟩ := List.mem_map.mp he
      have := hspots s hs
      show ¬decide (s.offset < h.bytes.length) = true
      simp only [decide_eq_true_eq]
      omega
  · exact List.mem_append_left _ (List.mem_map_of_mem List.mem_cons_self)

theorem not_isFault_items :
    ∀ e ∈ (readSource (h.bytes ++ itemBytes items)).events, e.isFault = false := by
  have hrest : (Mark.ofSource (h.bytes ++ itemBytes items)).rest = h.bytes ++ itemBytes items := rfl
  have hbody := (Mark.rest_past hrest).trans (List.append_nil _).symm
  have hin : ∀ e : Event, e.InHeader → e.isFault = false := by
    intro e he
    cases e with
    | fault spot b => exact he.elim
    | _ => rfl
  intro e he
  rw [events_readSource_items] at he
  rcases List.mem_append.mp he with he | he
  · obtain ⟨s, _, rfl⟩ := List.mem_map.mp he
    rfl
  · rcases List.mem_append.mp he with he | he
    · exact hin e (inHeader_headerEvents e he)
    · exact hin e ((start_itemsShow hbody).2 e he).2

end Items

/-- A body of complete items never matters. Any other body matters, where the reader keeps the header,
just if a fault in it comes before the end of a package clause. -/
theorem imports_before_body (h : Header) (d : Body.Declaration) (w : LineBreak) :
    sourceImports h.bytes = .ok h.records ∧
    (∀ items : List (Item × LineBreak),
      sourceImports (h.bytes ++ (d.bytes ++ (w.bytes ++ itemBytes items))) = .ok h.records) ∧
    ∀ rest : Bytes, KeepsHeader h (d.bytes ++ (w.bytes ++ rest)) →
      (sourceImports (h.bytes ++ (d.bytes ++ (w.bytes ++ rest))) = .ok h.records ↔
        FaultsBehindClauses (readSource (h.bytes ++ (d.bytes ++ (w.bytes ++ rest)))).events) := by
  refine ⟨sourceImports_header h, fun items => ?_, fun rest hkeeps => sourceImports_eq_iff hkeeps⟩
  have hbytes : itemBytes ((.other d, w) :: items) = d.bytes ++ (w.bytes ++ itemBytes items) := by
    simp [itemBytes, Item.bytes]
  have hkeeps := keepsHeader_items h d w items
  have hnone := not_isFault_items h ((.other d, w) :: items)
  rw [hbytes] at hkeeps hnone
  refine (sourceImports_eq_iff hkeeps).mpr ?_
  intro e he f hf hfault
  simp [hnone e he] at hfault

namespace Body

def oneImport : Header where
  lead := ⟨[], by simp⟩
  gap := oneSpace
  name := ⟨[0x70], by decide, by decide +kernel⟩
  stop := oneLineFeed
  decls := [(.single oneSpace ⟨none, .quoted, ⟨"fmt", by simp⟩⟩, oneLineFeed)]

def oneVar : Declaration := ⟨.var, oneSpace, ⟨[0x78], by decide, by decide +kernel⟩⟩

end Body

/-- A byte that fits nowhere is a fault, and in the body it does not matter. -/
theorem imports_before_stray_byte :
    KeepsHeader Body.oneImport (Body.oneVar.bytes ++ (oneLineFeed.bytes ++ [0x24, lineFeed])) ∧
      sourceImports (Body.oneImport.bytes ++ (Body.oneVar.bytes ++ (oneLineFeed.bytes ++
        [0x24, lineFeed]))) = .ok Body.oneImport.records := by
  have hread : KeepsHeader Body.oneImport
        (Body.oneVar.bytes ++ (oneLineFeed.bytes ++ [0x24, lineFeed])) ∧
      FaultsBehindClauses (readSource (Body.oneImport.bytes ++ (Body.oneVar.bytes ++
        (oneLineFeed.bytes ++ [0x24, lineFeed])))).events := by
    decide +kernel
  exact ⟨hread.1, ((imports_before_body _ _ _).2.2 _ hread.1).mpr hread.2⟩

/-- There are bodies that matter: a stray byte with a package clause behind it counts as a fault of the
header, and text that fits nowhere can make the reader give up the header with the rest. -/
theorem body_matters :
    (∃ (h : Header) (d : Body.Declaration) (w : LineBreak) (rest : Bytes),
      KeepsHeader h (d.bytes ++ (w.bytes ++ rest)) ∧
      sourceImports (h.bytes ++ (d.bytes ++ (w.bytes ++ rest))) = .error (.syntaxError 4)) ∧
    ∃ (h : Header) (d : Body.Declaration) (w : LineBreak) (rest : Bytes),
      ¬KeepsHeader h (d.bytes ++ (w.bytes ++ rest)) ∧
      sourceImports (h.bytes ++ (d.bytes ++ (w.bytes ++ rest))) = .error (.syntaxError 1) := by
  constructor
  · refine ⟨Body.oneImport, Body.oneVar, oneLineFeed,
      [0x24, lineFeed] ++ (packageBytes ++ [spaceByte, 0x71, lineFeed]), ?_⟩
    decide +kernel
  · refine ⟨Body.oneImport, Body.oneVar, oneLineFeed, [0x3F, 0x26, 0x7B, 0x5D, 0x2F], ?_⟩
    decide +kernel

end ImportGroups
