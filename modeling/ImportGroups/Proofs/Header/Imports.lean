import ImportGroups.Proofs.Header.Pieces
import ImportGroups.Source.Imports
import Mathlib.Data.List.Basic

/-!
The imports of a file that is nothing but a header.

Its events are those of its parts, none of which is a fault or another item, and so its records are
those of its specs.
-/

namespace ImportGroups

open Text (Bytes)
open Source Header

namespace Source

theorem foldl_min_le_iff {xs : List Nat} {n a : Nat} :
    xs.foldl min n ≤ a ↔ n ≤ a ∨ ∃ x ∈ xs, x ≤ a := by
  induction xs generalizing n with
  | nil => simp
  | cons x xs ih =>
    have hmin : min n x ≤ a ↔ n ≤ a ∨ x ≤ a := by omega
    rw [List.foldl_cons, ih, hmin]
    simp [or_assoc]

theorem le_foldl_max_iff {xs : List Nat} {n a : Nat} :
    a ≤ xs.foldl max n ↔ a ≤ n ∨ ∃ x ∈ xs, a ≤ x := by
  induction xs generalizing n with
  | nil => simp
  | cons x xs ih =>
    have hmax : a ≤ max n x ↔ a ≤ n ∨ a ≤ x := by omega
    rw [List.foldl_cons, ih, hmax]
    simp [or_assoc]

theorem headerLimit_eq {size : Nat} {es : List Event} (h : ∀ e ∈ es, e.InHeader) :
    headerLimit size es = size := by
  unfold headerLimit
  rw [List.filterMap_eq_nil_iff.mpr, List.foldl_nil]
  intro e he
  have := h e he
  cases e <;> first | rfl | exact this.elim

theorem headerFaults_eq {limit : Nat} {es : List Event} (h : ∀ e ∈ es, e.InHeader) :
    headerFaults limit es = [] := by
  rw [headerFaults, List.filterMap_eq_nil_iff]
  intro e he
  have := h e he
  cases e <;> first | rfl | exact this.elim

theorem importsOfEvents_eq {size : Nat} {es : List Event} (hpackage : hasPackageClause es = true)
    (h : ∀ e ∈ es, e.InHeader) : importsOfEvents size es = .ok (headerRecords size es) := by
  simp [importsOfEvents, headerLimit_eq h, hpackage, headerFaults_eq h]

end Source

theorem unquote_enclosed {q : Char} (hq : q = '"' ∨ q = '`') (cs : List Char) :
    unquote (q :: (cs ++ [q])) = cs := by
  cases cs with
  | nil => rcases hq with rfl | rfl <;> rfl
  | cons c cs =>
    have hquote : (q == '"' || q == '`') = true := by rcases hq with rfl | rfl <;> rfl
    have hlast : (c :: (cs ++ [q])).getLast? = some q := by
      rw [← List.cons_append, List.getLast?_append]
      rfl
    simp only [List.cons_append, unquote, hquote, hlast, beq_self_eq_true, Bool.and_self, if_true]
    rw [← List.cons_append, List.dropLast_concat]

theorem literalPath_literal (s : Spec) : literalPath s.literal = s.path.text := by
  obtain ⟨q, hq, hbyte⟩ : ∃ q, (q = '"' ∨ q = '`') ∧ String.utf8EncodeChar q = [s.style.byte] := by
    cases s.style with
    | quoted => exact ⟨'"', .inl rfl, by decide⟩
    | raw => exact ⟨'`', .inr rfl, by decide⟩
  have hliteral : s.literal = Text.encodeUtf8 (.ofList (q :: (s.path.text.toList ++ [q]))) := by
    rw [Text.encodeUtf8_eq, String.toList_ofList, Spec.literal, ImportPath.bytes, Text.encodeUtf8_eq]
    simp [hbyte]
  rw [literalPath, hliteral, Text.decodeUtf8Lenient_encodeUtf8, String.toList_ofList,
    unquote_enclosed hq, String.ofList_toList]

namespace Source

def Piece.record? : Piece → Option Record
  | spec a s => some (s.record a.length)
  | _ => none

theorem specPieces_records (a : Bytes) (s : Spec) (specs : List (LineBreak × Spec)) :
    (specPieces a s specs).filterMap Piece.record? = Block.recordsFrom a.length s specs := by
  induction specs generalizing a s with
  | nil => rfl
  | cons x specs ih =>
    obtain ⟨w, s'⟩ := x
    simp [specPieces, Block.recordsFrom, Piece.record?, ih, Nat.add_assoc]

theorem declPieces_records (a : Bytes) (d : Declaration) :
    (declPieces a d).filterMap Piece.record? = d.records a.length := by
  cases d with
  | single gap s =>
    simp [declPieces, List.filterMap_cons, Piece.record?, Declaration.records, Nat.add_assoc]
  | empty gap inner => rfl
  | block gap b =>
    simp [declPieces, List.filterMap_cons, Piece.record?, specPieces_records, Declaration.records,
      Block.records, Nat.add_assoc, Nat.add_comm 1]

theorem declsPieces_records (a : Bytes) (decls : List (Declaration × LineBreak)) :
    (declsPieces a decls).filterMap Piece.record? = declRecords a.length decls := by
  induction decls generalizing a with
  | nil => rfl
  | cons x decls ih =>
    obtain ⟨d, w⟩ := x
    simp [declsPieces, declPieces_records, declRecords, ih, Nat.add_assoc]

theorem headerPieces_records (h : Header) :
    (headerPieces h).filterMap Piece.record? = h.records := by
  simp [headerPieces, List.filterMap_cons, Piece.record?, declsPieces_records, Header.records]

/-- The records of a header that stand before the limit. The text that is read may be another one of
the same length. -/
theorem headerRecords_headerEvents {source : Bytes} (h : Header) (limit : Nat)
    (hlength : h.bytes.length ≤ source.length) :
    headerRecords limit (headerEvents (.ofSource source) h) =
      h.records.filter fun r => decide (r.start < (limit : Int)) := by
  rw [← headerPieces_event, ← headerPieces_records, headerRecords, List.filterMap_map,
    List.filter_filterMap]
  apply List.filterMap_congr
  intro p hp
  obtain ⟨-, hlt⟩ := headerPieces_lie h p hp
  have hle : p.before.length + p.text.length ≤ (Mark.ofSource source).rest.length := by
    simp only [Mark.ofSource]
    omega
  obtain ⟨hstart, hstop⟩ := p.offset_event_of_length hle
  cases p with
  | clause a t => rfl
  | declaration a t => rfl
  | spec a s =>
    simp only [Piece.before, Piece.text, Mark.ofSource, Nat.zero_add] at hstart hstop
    simp only [Piece.event, specEvent, Event.start, Event.stop] at hstart hstop
    simp [Piece.event, specEvent, Piece.record?, Spec.record, literalPath_literal, Mark.ofSource,
      hstart, hstop, Option.filter]

theorem start_lt_of_mem_records {h : Header} {r : Record} (hr : r ∈ h.records) :
    r.start < h.bytes.length := by
  rw [← headerPieces_records, List.mem_filterMap] at hr
  obtain ⟨p, hp, hrecord⟩ := hr
  have hlt := (headerPieces_lie h p hp).2
  cases p with
  | clause a t => cases hrecord
  | declaration a t => cases hrecord
  | spec a s =>
    cases hrecord
    simp only [Piece.before] at hlt
    simp only [Spec.record]
    omega

theorem headerRecords_header (h : Header) :
    headerRecords h.bytes.length (headerEvents (.ofSource h.bytes) h) = h.records := by
  rw [headerRecords_headerEvents h _ (Nat.le_refl _), List.filter_eq_self]
  intro r hr
  exact decide_eq_true (start_lt_of_mem_records hr)

theorem events_readSource (h : Header) :
    (readSource h.bytes).events = headerEvents (.ofSource h.bytes) h := by
  have hrest : (Mark.ofSource h.bytes).rest = h.bytes ++ [] := by simp [Mark.ofSource]
  obtain ⟨l, k, hreads, hgathered, hat⟩ := reads_header hrest (by simp)
  simpa using hgathered.events_readSource hreads hat

end Source

theorem sourceImports_header (h : Header) : sourceImports h.bytes = .ok h.records := by
  rw [sourceImports, events_readSource, importsOfEvents_eq rfl inHeader_headerEvents,
    headerRecords_header]

end ImportGroups
