import ImportGroups.Proofs.Header.Imports
import ImportGroups.Proofs.Soundness.Rounds
import ImportGroups.Proofs.Utf8

/-!
Where the records of a source point to.

The records lie in the source one behind the other, and each of them ends with a literal whose opening
quote stands there. So does its closing quote, and the path is what lies between the two, unless the
reader had to put the closing quote in. That is a fault, but one behind the header does no harm, and
then the record ends where the quote is missing.
-/

namespace ImportGroups

open Text (Bytes)
open Source

def IsQuote (b : UInt8) : Prop := b = quoteByte ∨ b = rawQuoteByte

/-- The literal of a record starts with the byte at the offset `q`, and ends with the same byte. The
path is what lies between them. -/
structure Record.IsQuoted (src : Bytes) (q : Nat) (r : Record) : Prop where
  length : q + 2 ≤ r.stop
  closing : src[r.stop.toNat - 1]? = src[q]?
  path : r.path = Text.decodeUtf8Lenient (src.extract (q + 1) (r.stop.toNat - 1))

/-- The literal of a record starts at the offset `q` and is never closed. Its closing quote is missing
at a place behind the header, and the path is all of the text up to there. -/
structure Record.IsUnclosed (src : Bytes) (events : List Event) (q : Nat) (r : Record) : Prop where
  unclosed : q + 2 ≤ r.stop → src[r.stop.toNat - 1]? ≠ src[q]?
  path : r.path = Text.decodeUtf8Lenient (src.extract q r.stop.toNat)
  fault : ∃ spot, .fault spot false ∈ events ∧ spot.offset = r.stop
  behind : headerEnd (headerLimit src.length events) events < r.stop

section Literals

variable {b : UInt8} {bs : Bytes}

theorem IsQuote.char (h : IsQuote b) :
    b < 0x80 ∧ (Char.ofNat b.toNat = '"' ∨ Char.ofNat b.toNat = '`') := by
  rcases h with rfl | rfl <;> decide

theorem unquote_unclosed {q : Char} {cs : List Char} (h : cs.getLast? ≠ some q) :
    unquote (q :: cs) = q :: cs := by
  cases cs with
  | nil => rfl
  | cons c cs => simp [unquote, h]

theorem toList_decodeUtf8Lenient (bs : Bytes) :
    (Text.decodeUtf8Lenient bs).toList = (Text.utf8Pieces bs).map (·.getD '�') := by
  rw [Text.decodeUtf8Lenient, String.toList_ofList]

theorem toList_decodeUtf8Lenient_cons (hb : b < 0x80) (bs : Bytes) :
    (Text.decodeUtf8Lenient (b :: bs)).toList =
      Char.ofNat b.toNat :: (Text.decodeUtf8Lenient bs).toList := by
  simp [toList_decodeUtf8Lenient, Text.utf8Pieces, Text.utf8Piece_ascii hb]

theorem literalPath_quoted (hb : IsQuote b) (bs : Bytes) :
    literalPath (b :: (bs ++ [b])) = Text.decodeUtf8Lenient bs := by
  obtain ⟨hascii, hquote⟩ := hb.char
  have hlast : (Text.decodeUtf8Lenient (bs ++ [b])).toList =
      (Text.decodeUtf8Lenient bs).toList ++ [Char.ofNat b.toNat] := by
    simp [toList_decodeUtf8Lenient, Text.utf8Pieces_append hascii]
  rw [literalPath, toList_decodeUtf8Lenient_cons hascii, hlast, unquote_enclosed hquote,
    String.ofList_toList]

theorem literalPath_unclosed (hb : IsQuote b) (h : bs.getLast? ≠ some b) :
    literalPath (b :: bs) = Text.decodeUtf8Lenient (b :: bs) := by
  obtain ⟨hascii, hquote⟩ := hb.char
  have hlast : (Text.decodeUtf8Lenient bs).toList.getLast? ≠ some (Char.ofNat b.toNat) := by
    rw [toList_decodeUtf8Lenient, List.getLast?_map]
    intro hlast
    obtain ⟨c?, hc?, hc⟩ := Option.map_eq_some_iff.mp hlast
    cases c? with
    | none => rcases hb with rfl | rfl <;> exact absurd hc (by decide)
    | some c =>
      obtain rfl : c = Char.ofNat b.toNat := hc
      have hbyte : (Char.ofNat b.toNat).toNat < 0x80 ∧ UInt8.ofNat (Char.ofNat b.toNat).toNat = b := by
        rcases hb with rfl | rfl <;> decide
      exact h (hbyte.2 ▸ Text.getLast?_of_utf8Pieces hbyte.1 hc?)
  rw [literalPath, toList_decodeUtf8Lenient_cons hascii, unquote_unclosed hlast,
    ← toList_decodeUtf8Lenient_cons hascii, String.ofList_toList]

end Literals

namespace Source

theorem Symbol.isVisible_of_signByte {s : Symbol} {b : UInt8} (h : s.signByte? = some b) :
    s.isVisible = true := by
  cases s <;> first | rfl | cases h

/-- A quote stands at the offset `q`, and the same quote ends before the offset `stop` or is missing
there. -/
def Encloses (src : Bytes) (events : List Event) (q stop : Nat) : Prop :=
  ∃ b, IsQuote b ∧ src[q]? = some b ∧ q < stop ∧
    (q + 2 ≤ stop ∧ src[stop - 1]? = some b ∨
      ∃ spot, .fault spot false ∈ events ∧ spot.offset = stop)

/-- The record lies between two offsets and ends with a literal. -/
def Located (src : Bytes) (events : List Event) (a b : Nat) (r : Record) : Prop :=
  ∃ start q stop : Nat, r = ⟨literalPath (src.extract q stop), start, stop⟩ ∧ a ≤ start ∧ start ≤ q ∧
    stop ≤ b ∧ Encloses src events q stop

/-- The records lie between two offsets, one behind the other. -/
structure InOrder (src : Bytes) (events : List Event) (a b : Nat) (rs : List Record) : Prop where
  apart : rs.Pairwise fun r r' => r.stop ≤ r'.start
  located : ∀ r ∈ rs, Located src events a b r

section Located

variable {src : Bytes} {events events' : List Event} {a a' b b' : Nat} {r : Record}

theorem Located.mono (h : Located src events a b r) (ha : a' ≤ a) (hb : b ≤ b')
    (he : events ⊆ events') : Located src events' a' b' r := by
  obtain ⟨start, q, stop, hr, hstart, hq, hstop, x, hx, hbyte, hlt, hclosed⟩ := h
  refine ⟨start, q, stop, hr, Nat.le_trans ha hstart, hq, Nat.le_trans hstop hb, x, hx, hbyte, hlt, ?_⟩
  exact hclosed.imp_right fun ⟨spot, hspot, hoffset⟩ => ⟨spot, he hspot, hoffset⟩

theorem Located.bounds (h : Located src events a b r) :
    a ≤ r.start ∧ r.start < r.stop ∧ r.stop ≤ b := by
  obtain ⟨start, q, stop, rfl, hstart, hq, hstop, x, -, -, hlt, -⟩ := h
  dsimp only
  omega

end Located

namespace Tree

variable {src : Bytes} {t : Tree} {ts : List Tree} {a b : Nat}

theorem Between.bounds (h : Between ts a b) :
    ∀ t ∈ ts, a ≤ t.start.offset ∧ t.stop.offset ≤ b := by
  induction ts generalizing a with
  | nil => simp
  | cons t ts ih =>
    obtain ⟨hstart, hle, hrest⟩ := h
    refine List.forall_mem_cons.mpr ⟨⟨hstart, hrest.le⟩, fun u hu => ?_⟩
    have := ih hrest u hu
    omega

theorem Between.pairwise (h : Between ts a b) :
    ts.Pairwise fun t u => t.stop.offset ≤ u.start.offset := by
  induction ts generalizing a with
  | nil => exact .nil
  | cons t ts ih => exact .cons (fun u hu => (h.2.2.bounds u hu).1) (ih h.2.2)

theorem outline_subset {c : Tree} (h : c ∈ t.children) : c.outline ⊆ t.outline := by
  intro e he
  rw [outline_eq]
  exact List.mem_append_right _ (List.mem_flatMap.mpr ⟨c, h, he⟩)

theorem headerRecords_outline (limit : Nat) (t : Tree) :
    headerRecords limit t.outline = headerRecords limit t.event?.toList ++
      t.children.flatMap fun c => headerRecords limit c.outline := by
  rw [outline_eq]
  simp only [headerRecords, List.filterMap_append, List.filterMap_flatMap]

theorem headerRecords_event (limit : Nat) (h : t.label ≠ .phrase .importSpec) :
    headerRecords limit t.event?.toList = [] := by
  unfold event?
  split_ifs
  · rfl
  · rfl
  · split
    · rfl
    · rfl
    · exact absurd ‹_› h
    · rfl

theorem Specless.headerRecords (limit : Nat) (h : t.Specless) :
    headerRecords limit t.outline = [] := by
  induction h with
  | intro hlabel _ ih =>
    rw [headerRecords_outline, headerRecords_event limit hlabel, List.nil_append,
      List.flatMap_eq_nil_iff]
    exact ih

theorem event?_of_missing (hvisible : t.isVisible = true) (hmissing : t.missing = true)
    (hchildren : t.children = []) : t.event? = some (.fault t.start.toSpot false) := by
  have hnone : t.visibleChildren = [] := by
    rw [visibleChildren, hchildren]
    cases t.size <;> rfl
  simp [event?, hvisible, hmissing, isOpenImport, hnone]

theorem IsQuotation.encloses {opening closing : Symbol} {b : UInt8} (h : t.IsQuotation opening closing)
    (hsound : t.Sound src) (hb : IsQuote b) (hopening : opening.signByte? = some b)
    (hclosing : closing.signByte? = some b) :
    Encloses src t.outline t.start.offset t.stop.offset := by
  obtain ⟨first, inner, last, hchildren, hfirst, hread, hlast, hstart, hstop⟩ := h.parts
  have hbetween := hsound.between
  have hsounds := hsound.children
  rw [hchildren] at hbetween hsounds
  have hbehind := (hbetween.2.2.bounds last (by simp)).1
  have hopen : first.Spells src b := by
    refine (((hsounds first (by simp)).isTokenOf hfirst).sign b hopening).resolve_right ?_
    rintro ⟨-, hputIn⟩
    exact absurd hputIn.missing (by simp [hread])
  have hclose := (hsounds last (by simp)).isTokenOf hlast
  rw [hstart, hstop]
  have hq := hopen.stop
  rcases hclose.sign b hclosing with hspells | ⟨-, hputIn⟩
  · have hstop := hspells.stop
    refine ⟨b, hb, hopen.byte, by omega, .inl ⟨by omega, ?_⟩⟩
    rw [hstop, Nat.add_sub_cancel]
    exact hspells.byte
  · have hevent := event?_of_missing (by rw [isVisible, hlast]; exact Symbol.isVisible_of_signByte hclosing)
      hputIn.missing hclose.children
    refine ⟨b, hb, hopen.byte, by rw [hputIn.stop]; omega, .inr ⟨last.start.toSpot, ?_, ?_⟩⟩
    · refine outline_subset (t := t) (c := last) (by simp [hchildren]) ?_
      rw [outline_eq, hevent]
      exact List.mem_cons_self
    · rw [hputIn.stop]

theorem Sound.encloses (h : t.Sound src) (hstring : t.isString = true) :
    Encloses src t.outline t.start.offset t.stop.offset := by
  have hshaped := h.shaped
  rw [isString, Bool.or_eq_true, beq_iff_eq, beq_iff_eq] at hstring
  rcases hstring with hl | hl
  · simp only [Shaped, hl] at hshaped
    exact hshaped.encloses h (.inl rfl) rfl rfl
  · simp only [Shaped, hl] at hshaped
    exact hshaped.encloses h (.inr rfl) rfl rfl

theorem Sound.event_spec (h : t.Sound src) (hlabel : t.label = .phrase .importSpec) :
    t.event? = some (.fault t.start.toSpot t.isOpenImport) ∨
      ∃ path ∈ t.children.getLast?, path.isString = true ∧
        t.event? = some (.importSpec t.start.toSpot path.start.toSpot path.stop.toSpot path.text) := by
  have hshaped := h.shaped
  simp only [Shaped, hlabel] at hshaped
  obtain ⟨before, path, hchildren, hstring⟩ := hshaped.path
  have hfind : t.visibleChildren.reverse.find? isString = some path := by
    have hfrontier : path.frontier = [path] := by
      refine frontier_of_visible ?_
      rw [isString, Bool.or_eq_true, beq_iff_eq, beq_iff_eq] at hstring
      rcases hstring with hl | hl <;> rw [isVisible, hl] <;> rfl
    rw [h.counted.visibleChildren, hchildren, List.flatMap_append, List.flatMap_singleton, hfrontier,
      List.reverse_append]
    simp [hstring]
  have hvisible : t.isVisible = true := by rw [isVisible, hlabel]; rfl
  cases hmissing : t.missing with
  | true => exact .inl (by simp [event?, hvisible, hmissing])
  | false =>
    refine .inr ⟨path, by simp [hchildren], hstring, ?_⟩
    simp [event?, hvisible, hmissing, isError, hlabel, hfind]

theorem Sound.text (h : t.Sound src) : t.text = src.extract t.start.offset t.stop.offset := by
  rw [Tree.text, h.start.2]

theorem Sound.inOrder_spec (h : t.Sound src) (hlabel : t.label = .phrase .importSpec) (limit : Nat) :
    InOrder src t.outline t.start.offset t.stop.offset (headerRecords limit t.event?.toList) := by
  rcases h.event_spec hlabel with hevent | ⟨path, hpath, hstring, hevent⟩
  · rw [hevent]
    exact ⟨.nil, List.forall_mem_nil _⟩
  · have hpath := List.mem_of_getLast? hpath
    have hsound := h.children path hpath
    obtain ⟨hstart, hstop⟩ := h.between.bounds path hpath
    have hlocated : Located src path.outline t.start.offset t.stop.offset
        ⟨literalPath path.text, t.start.offset, path.stop.offset⟩ :=
      ⟨_, _, _, by rw [hsound.text], Nat.le_refl _, hstart, hstop, hsound.encloses hstring⟩
    have hlocated := hlocated.mono (Nat.le_refl _) (Nat.le_refl _) (outline_subset hpath)
    rw [hevent, headerRecords, Option.toList_some, List.filterMap_cons]
    dsimp only
    split_ifs
    · exact ⟨List.pairwise_singleton _ _, by simpa using hlocated⟩
    · exact ⟨.nil, List.forall_mem_nil _⟩

/-- The records of a tree lie inside of it. An import spec holds no other spec, so its record reaches
into no other one. -/
theorem Sound.inOrder (h : t.Sound src) (limit : Nat) :
    InOrder src t.outline t.start.offset t.stop.offset (headerRecords limit t.outline) := by
  induction h with
  | @intro t start stop between size shaped children ih =>
    rw [headerRecords_outline]
    by_cases hlabel : t.label = .phrase .importSpec
    · have hnone : t.children.flatMap (fun c => headerRecords limit c.outline) = [] := by
        simp only [Shaped, hlabel] at shaped
        exact List.flatMap_eq_nil_iff.mpr fun c hc => (shaped.specless c hc).headerRecords limit
      rw [hnone, List.append_nil]
      exact (Sound.intro start stop between size shaped children).inOrder_spec hlabel limit
    · rw [headerRecords_event limit hlabel, List.nil_append]
      constructor
      · refine List.pairwise_flatMap.mpr ⟨fun c hc => (ih c hc).apart, ?_⟩
        refine between.pairwise.imp_of_mem fun hc hc' hle r hr r' hr' => ?_
        have := ((ih _ hc).located r hr).bounds
        have := ((ih _ hc').located r' hr').bounds
        omega
      · intro r hr
        obtain ⟨c, hc, hr⟩ := List.mem_flatMap.mp hr
        obtain ⟨hstart, hstop⟩ := between.bounds c hc
        exact ((ih c hc).located r hr).mono hstart hstop (outline_subset hc)

end Tree

theorem headerRecords_of_ok {size : Nat} {events : List Event} {rs : List Record}
    (h : importsOfEvents size events = .ok rs) :
    rs = headerRecords (headerLimit size events) events ∧
      ∀ spot b, .fault spot b ∈ events → headerEnd (headerLimit size events) events < spot.offset := by
  unfold importsOfEvents at h
  dsimp only at h
  split_ifs at h
  split at h
  · rename_i hfaults
    refine ⟨(Except.ok.inj h).symm, fun spot b hspot => Nat.lt_of_not_le fun hle => ?_⟩
    rw [headerFaults, List.filterMap_eq_nil_iff] at hfaults
    have := hfaults _ hspot
    simp [hle] at this
  · cases h

theorem closed_of_ok {size : Nat} {events : List Event} {rs : List Record} {spot : Spot} {b : Bool}
    (h : importsOfEvents size events = .ok rs) (hspot : .fault spot b ∈ events)
    (hlt : spot.offset < headerLimit size events) : b = false := by
  unfold importsOfEvents at h
  dsimp only at h
  split_ifs at h
  split at h
  · rename_i hfaults
    rw [headerFaults, List.filterMap_eq_nil_iff] at hfaults
    have := hfaults _ hspot
    simp [hlt] at this
    exact this.2
  · cases h

theorem headerRecords_events {t : Tree} (h : t.Counted) (limit : Nat) :
    headerRecords limit t.events = headerRecords limit t.outline := by
  have hnone : headerRecords limit ((t.children.flatMap Tree.others).map Event.otherItem) = [] := by
    rw [headerRecords, List.filterMap_map, List.filterMap_eq_nil_iff]
    exact fun _ _ => rfl
  rw [h.events]
  simp only [headerRecords, List.filterMap_append] at hnone ⊢
  rw [hnone, List.nil_append]

section Extracts

variable {src : Bytes} {q stop : Nat} {b : UInt8}

theorem extract_eq_cons (hb : src[q]? = some b) (hlt : q < stop) :
    src.extract q stop = b :: src.extract (q + 1) stop := by
  obtain ⟨hq, rfl⟩ := List.getElem?_eq_some_iff.mp hb
  show (src.drop q).take (stop - q) = src[q] :: (src.drop (q + 1)).take (stop - (q + 1))
  rw [List.drop_eq_getElem_cons hq, show stop - q = stop - (q + 1) + 1 by omega, List.take_succ_cons]

theorem extract_eq_concat (hlt : q < stop) :
    src.extract q stop = src.extract q (stop - 1) ++ src[stop - 1]?.toList := by
  show (src.drop q).take (stop - q) = (src.drop q).take (stop - 1 - q) ++ src[stop - 1]?.toList
  rw [show stop - q = stop - 1 - q + 1 by omega, List.take_add_one, List.getElem?_drop,
    show q + (stop - 1 - q) = stop - 1 by omega]

theorem getLast?_extract (hlt : q < stop) (hstop : stop ≤ src.length) :
    (src.extract q stop).getLast? = src[stop - 1]? := by
  rw [extract_eq_concat hlt, List.getElem?_eq_getElem (by omega), Option.toList_some,
    List.getLast?_concat]

theorem literalPath_extract (hb : IsQuote b) (hbyte : src[q]? = some b) (hlt : q < stop)
    (hstop : stop ≤ src.length) :
    literalPath (src.extract q stop) = if q + 2 ≤ stop ∧ src[stop - 1]? = some b then
      Text.decodeUtf8Lenient (src.extract (q + 1) (stop - 1))
    else Text.decodeUtf8Lenient (src.extract q stop) := by
  rw [extract_eq_cons hbyte hlt]
  split_ifs with hquoted
  · rw [extract_eq_concat hquoted.1, hquoted.2, Option.toList_some, literalPath_quoted hb]
  · refine literalPath_unclosed hb fun hlast => ?_
    by_cases hlength : q + 2 ≤ stop
    · rw [getLast?_extract hlength hstop] at hlast
      exact hquoted ⟨hlength, hlast⟩
    · rw [List.extract, show stop - (q + 1) = 0 by omega] at hlast
      simp at hlast

end Extracts

/-- If there is no fault in the header then a record is quoted, or its closing quote is missing behind
the header. -/
theorem Located.quoted_or_unclosed {src : Bytes} {events : List Event} {a : Nat} {r : Record}
    (h : Located src events a src.length r)
    (hfaults : ∀ spot b, .fault spot b ∈ events →
      headerEnd (headerLimit src.length events) events < spot.offset) :
    ∃ (q : Nat) (b : UInt8), IsQuote b ∧ src[q]? = some b ∧ r.start ≤ q ∧ q < r.stop ∧
      (r.IsQuoted src q ∨ r.IsUnclosed src events q) := by
  obtain ⟨start, q, stop, rfl, hstart, hq, hstop, b, hb, hbyte, hlt, hclosed⟩ := h
  refine ⟨q, b, hb, hbyte, Int.ofNat_le.mpr hq, Int.ofNat_lt.mpr hlt, ?_⟩
  have hpath := literalPath_extract hb hbyte hlt hstop
  by_cases hquoted : q + 2 ≤ stop ∧ src[stop - 1]? = some b
  · rw [if_pos hquoted] at hpath
    exact .inl ⟨by dsimp only; omega, hquoted.2.trans hbyte.symm, hpath⟩
  · rw [if_neg hquoted] at hpath
    obtain ⟨spot, hspot, rfl⟩ := hclosed.resolve_left hquoted
    refine .inr ⟨fun hlength hclosing => hquoted ⟨?_, hclosing.trans hbyte⟩, hpath, ⟨spot, hspot, rfl⟩,
      Int.ofNat_lt.mpr (hfaults spot false hspot)⟩
    dsimp only at hlength
    omega

theorem Tree.Sound.records {src : Bytes} {t : Tree} {rs : List Record} (h : t.Sound src)
    (hrecords : importsOfEvents src.length t.events = .ok rs) :
    rs.Pairwise (fun r r' => r.stop ≤ r'.start) ∧
      ∀ r ∈ rs, 0 ≤ r.start ∧ r.start < r.stop ∧ r.stop ≤ src.length ∧
        ∃ (q : Nat) (b : UInt8), IsQuote b ∧ src[q]? = some b ∧ r.start ≤ q ∧ q < r.stop ∧
          (r.IsQuoted src q ∨ r.IsUnclosed src t.events q) := by
  obtain ⟨rfl, hfaults⟩ := headerRecords_of_ok hrecords
  rw [headerRecords_events h.counted]
  obtain ⟨hapart, hlocated⟩ := h.inOrder (headerLimit src.length t.events)
  refine ⟨hapart, fun r hr => ?_⟩
  have hlocated : Located src t.events 0 src.length r := by
    refine (hlocated r hr).mono (Nat.zero_le _) h.stop.1 ?_
    rw [h.counted.events]
    exact List.subset_append_right _ _
  obtain ⟨hstart, hlt, hstop⟩ := hlocated.bounds
  exact ⟨hstart, hlt, hstop, hlocated.quoted_or_unclosed hfaults⟩

end Source

/-- The records of every source point into it. They lie one behind the other, and each of them ends
with a literal that is closed, or whose closing quote is missing behind the header. -/
theorem records_point_into_source {src : Bytes} {rs : List Record} (h : sourceImports src = .ok rs) :
    rs.Pairwise (fun r r' => r.stop ≤ r'.start) ∧
      ∀ r ∈ rs, 0 ≤ r.start ∧ r.start < r.stop ∧ r.stop ≤ src.length ∧
        ∃ (q : Nat) (b : UInt8), IsQuote b ∧ src[q]? = some b ∧ r.start ≤ q ∧ q < r.stop ∧
          (r.IsQuoted src q ∨ r.IsUnclosed src (readSource src).events q) := by
  have hevents : (readSource src).events = (readTree src).events := rfl
  rw [sourceImports, hevents] at h
  rw [hevents]
  exact (readTree_sound src).records h

/-- One spec has a name, the other one stands between backquotes. -/
def twoSpecs : Bytes := Text.encodeUtf8 "package p\nimport(f \"m\"\n`os`)\n"

theorem records_point_into_twoSpecs :
    sourceImports twoSpecs = .ok [⟨"m", 17, 22⟩, ⟨"os", 23, 27⟩] ∧
      ∀ r ∈ [(⟨"m", 17, 22⟩ : Record), ⟨"os", 23, 27⟩],
        r.start < r.stop ∧ r.stop ≤ twoSpecs.length := by
  have hread : sourceImports twoSpecs = .ok [⟨"m", 17, 22⟩, ⟨"os", 23, 27⟩] := by decide +kernel
  obtain ⟨-, hrecords⟩ := records_point_into_source hread
  exact ⟨hread, fun r hr => ⟨(hrecords r hr).2.1, (hrecords r hr).2.2.1⟩⟩

/-- A byte that fits nowhere stands before the block, so it is not known as an open import. The NUL
ends the literal right behind its quote, and all faults lie behind the header. -/
def unclosedSpec : Bytes := Text.encodeUtf8 "package p\n$import(\"\x00x"

/-- There are records that no quote closes. -/
theorem record_without_closing_quote :
    ∃ (src : Bytes) (r : Record), sourceImports src = .ok [r] ∧
      ¬ ∃ (q : Nat) (b : UInt8), IsQuote b ∧ src[q]? = some b ∧ r.start ≤ q ∧ r.IsQuoted src q := by
  refine ⟨unclosedSpec, ⟨"\"", 18, 19⟩, by decide +kernel, ?_⟩
  rintro ⟨q, -, -, -, hstart, hquoted⟩
  -- The record has a single byte, which cannot be both quotes.
  have hlength := hquoted.length
  dsimp only at hstart hlength
  omega

end ImportGroups
