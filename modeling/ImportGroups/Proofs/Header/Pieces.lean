import ImportGroups.Proofs.Header.Reading

/-!
The pieces of a header that show.

What a header shows is determined by its text: each event stands for a piece of the text, and says
where the piece starts and stops. What stands behind the header plays no part in it.
-/

namespace ImportGroups.Source

open Text (Bytes)
open Header (LineBreak Spec Declaration importBytes packageBytes leftParenByte declBytes)

inductive Piece where
  | clause (before text : Bytes)
  | declaration (before text : Bytes)
  | spec (before : Bytes) (s : Spec)

namespace Piece

def before : Piece → Bytes
  | clause before _ => before
  | declaration before _ => before
  | spec before _ => before

def text : Piece → Bytes
  | clause _ text => text
  | declaration _ text => text
  | spec _ s => s.bytes

def event (m : Mark) : Piece → Event
  | clause a t => .packageClause (m.past a).toSpot ((m.past a).past t).toSpot
  | declaration a t => .importDeclaration (m.past a).toSpot ((m.past a).past t).toSpot
  | spec a s => specEvent (m.past a) s

structure Lies (p : Piece) (a whole : Bytes) : Prop where
  behind : a.length ≤ p.before.length
  within : p.before ++ p.text <+: whole

theorem Lies.mono {p : Piece} {a a' whole whole' : Bytes} (h : p.Lies a whole)
    (ha : a'.length ≤ a.length) (hwhole : whole <+: whole') : p.Lies a' whole' :=
  ⟨Nat.le_trans ha h.behind, h.within.trans hwhole⟩

end Piece

def specPieces (a : Bytes) (s : Spec) : List (LineBreak × Spec) → List Piece
  | [] => [.spec a s]
  | (w, s') :: specs => .spec a s :: specPieces (a ++ (s.bytes ++ w.bytes)) s' specs

theorem specPieces_event (m : Mark) (a : Bytes) (s : Spec) (specs : List (LineBreak × Spec)) :
    (specPieces a s specs).map (Piece.event m) =
      specEvent (m.past a) s :: moreEvents ((m.past a).past s.bytes) specs := by
  induction specs generalizing a s with
  | nil => rfl
  | cons x specs ih =>
    obtain ⟨w, s'⟩ := x
    rw [specPieces, List.map_cons, ih, moreEvents, ← Mark.past_past, ← Mark.past_past]
    rfl

theorem specPieces_lie (a : Bytes) (s : Spec) (specs : List (LineBreak × Spec)) :
    ∀ p ∈ specPieces a s specs, p.Lies a (a ++ (s.bytes ++ Header.Block.moreBytes specs)) := by
  induction specs generalizing a s with
  | nil =>
    intro p hp
    obtain rfl : p = .spec a s := by simpa [specPieces] using hp
    exact ⟨Nat.le_refl _, by simp [Piece.before, Piece.text, Header.Block.moreBytes]⟩
  | cons x specs ih =>
    obtain ⟨w, s'⟩ := x
    intro p hp
    rcases List.mem_cons.mp hp with rfl | hp
    · refine ⟨Nat.le_refl _, ?_⟩
      rw [← List.append_assoc]
      exact List.prefix_append _ _
    · refine (ih _ _ p hp).mono (by simp) ?_
      simp [Header.Block.moreBytes]

def declPieces (a : Bytes) (d : Declaration) : List Piece :=
  .declaration a d.bytes ::
    match d with
    | .single gap s => [.spec (a ++ (importBytes ++ gap.bytes)) s]
    | .empty _ _ => []
    | .block gap b =>
      specPieces (a ++ (importBytes ++ (gap.bytes ++ ([leftParenByte] ++ b.lead.bytes)))) b.first b.more

theorem declPieces_event (m : Mark) (a : Bytes) (d : Declaration) :
    (declPieces a d).map (Piece.event m) = declEvents (m.past a) d := by
  cases d with
  | single gap s => simp [declPieces, declEvents, innerEvents, Piece.event, Mark.past_past]
  | empty gap inner => rfl
  | block gap b =>
    rw [declPieces, List.map_cons, specPieces_event]
    simp [declEvents, innerEvents, blockEvents, Piece.event, Mark.past_past]

theorem declPieces_lie (a : Bytes) (d : Declaration) :
    ∀ p ∈ declPieces a d, p.Lies a (a ++ d.bytes) := by
  intro p hp
  rcases List.mem_cons.mp hp with rfl | hp
  · exact ⟨Nat.le_refl _, List.prefix_rfl⟩
  cases d with
  | single gap s =>
    obtain rfl : p = .spec (a ++ (importBytes ++ gap.bytes)) s := by simpa using hp
    refine ⟨by simp [Piece.before], ?_⟩
    simp [Piece.before, Piece.text, Declaration.bytes, Declaration.inside]
  | empty gap inner => simp at hp
  | block gap b =>
    refine (specPieces_lie _ _ _ p hp).mono (by simp) ?_
    simp [Declaration.bytes, Declaration.inside, Header.Block.bytes]

def declsPieces (a : Bytes) : List (Declaration × LineBreak) → List Piece
  | [] => []
  | (d, w) :: decls => declPieces a d ++ declsPieces (a ++ (d.bytes ++ w.bytes)) decls

theorem declsPieces_event (m : Mark) (a : Bytes) (decls : List (Declaration × LineBreak)) :
    (declsPieces a decls).map (Piece.event m) = declsEvents (m.past a) decls := by
  induction decls generalizing a with
  | nil => rfl
  | cons x decls ih =>
    obtain ⟨d, w⟩ := x
    rw [declsPieces, List.map_append, declPieces_event, ih, declsEvents, Mark.past_past,
      Mark.past_past]

theorem declsPieces_lie (a : Bytes) (decls : List (Declaration × LineBreak)) :
    ∀ p ∈ declsPieces a decls, p.Lies a (a ++ declBytes decls) ∧
      p.before.length + p.text.length < (a ++ declBytes decls).length := by
  induction decls generalizing a with
  | nil => simp [declsPieces]
  | cons x decls ih =>
    obtain ⟨d, w⟩ := x
    have hbytes : a ++ declBytes ((d, w) :: decls) =
        (a ++ (d.bytes ++ w.bytes)) ++ declBytes decls := by
      simp [declBytes]
    rw [hbytes]
    intro p hp
    rcases List.mem_append.mp hp with hp | hp
    · have hlies := declPieces_lie a d p hp
      have hlength := hlies.within.length_le
      have hpos : 0 < w.bytes.length := List.length_pos_of_mem w.breaks
      simp only [List.length_append] at hlength ⊢
      refine ⟨hlies.mono (Nat.le_refl _) ?_, by omega⟩
      simp
    · obtain ⟨hlies, hlt⟩ := ih _ p hp
      exact ⟨hlies.mono (by simp) List.prefix_rfl, hlt⟩

def headerPieces (h : Header) : List Piece :=
  .clause h.lead.bytes (packageBytes ++ (h.gap.bytes ++ h.name.bytes)) ::
    declsPieces h.clauseBytes h.decls

theorem headerPieces_event (m : Mark) (h : Header) :
    (headerPieces h).map (Piece.event m) = headerEvents m h := by
  rw [headerPieces, List.map_cons, declsPieces_event]
  rfl

theorem headerPieces_lie (h : Header) : ∀ p ∈ headerPieces h, p.before ++ p.text <+: h.bytes ∧
    p.before.length + p.text.length < h.bytes.length := by
  intro p hp
  rcases List.mem_cons.mp hp with rfl | hp
  · have hpos : 0 < h.stop.bytes.length := List.length_pos_of_mem h.stop.breaks
    have hbytes : h.bytes = (h.lead.bytes ++ (packageBytes ++ (h.gap.bytes ++ h.name.bytes))) ++
        (h.stop.bytes ++ declBytes h.decls) := by
      simp [Header.bytes, Header.clauseBytes]
    rw [hbytes]
    refine ⟨List.prefix_append _ _, ?_⟩
    simp only [Piece.before, Piece.text, List.length_append]
    omega
  · obtain ⟨hlies, hlt⟩ := declsPieces_lie _ _ p hp
    exact ⟨hlies.within, hlt⟩

/-- What may stand in a header: neither a fault nor another item. -/
def Event.InHeader : Event → Prop
  | .fault _ _ => False
  | .otherItem _ => False
  | _ => True

theorem Piece.inHeader_event (m : Mark) (p : Piece) : (p.event m).InHeader := by
  cases p <;> exact trivial

theorem inHeader_headerEvents {m : Mark} {h : Header} : ∀ e ∈ headerEvents m h, e.InHeader := by
  intro e he
  rw [← headerPieces_event] at he
  obtain ⟨p, _, rfl⟩ := List.mem_map.mp he
  exact p.inHeader_event m

def Event.start : Event → Spot
  | packageClause start _ => start
  | importDeclaration start _ => start
  | importSpec start _ _ _ => start
  | otherItem start => start
  | fault start _ => start

def Event.stop : Event → Spot
  | packageClause _ stop => stop
  | importDeclaration _ stop => stop
  | importSpec _ _ stop _ => stop
  | otherItem start => start
  | fault start _ => start

namespace Piece

variable {m m' : Mark} {p : Piece} {whole more more' : Bytes}

theorem offset_event_of_length (h : p.before.length + p.text.length ≤ m.rest.length) :
    (p.event m).start.offset = m.offset + p.before.length ∧
      (p.event m).stop.offset = m.offset + p.before.length + p.text.length := by
  have hstart : (m.past p.before).offset = m.offset + p.before.length :=
    Mark.offset_advance (by omega)
  have hstop : ((m.past p.before).past p.text).offset = _ :=
    Mark.offset_advance (by rw [Mark.past, Mark.rest_advance, List.length_drop]; omega)
  rw [← hstart, ← hstop]
  cases p <;> exact ⟨rfl, rfl⟩

theorem offset_event (hrest : m.rest = whole ++ more) (hp : p.before ++ p.text <+: whole) :
    (p.event m).start.offset = m.offset + p.before.length ∧
      (p.event m).stop.offset = m.offset + p.before.length + p.text.length := by
  have hlength := hp.length_le
  rw [List.length_append] at hlength
  refine offset_event_of_length ?_
  rw [hrest, List.length_append]
  omega

theorem event_congr (hspot : m.toSpot = m'.toSpot) (hrest : m.rest = whole ++ more)
    (hrest' : m'.rest = whole ++ more') (hp : p.before ++ p.text <+: whole) :
    p.event m = p.event m' := by
  obtain ⟨rest, rfl⟩ := hp
  have hbefore : m.rest = p.before ++ (p.text ++ (rest ++ more)) := by simpa using hrest
  have hbefore' : m'.rest = p.before ++ (p.text ++ (rest ++ more')) := by simpa using hrest'
  have hstart := Mark.toSpot_past hspot hbefore hbefore'
  have hstop := Mark.toSpot_past hstart (Mark.rest_past hbefore) (Mark.rest_past hbefore')
  cases p with
  | clause a t =>
    simp only [before, text] at hstart hstop
    simp only [event, hstart, hstop]
  | declaration a t =>
    simp only [before, text] at hstart hstop
    simp only [event, hstart, hstop]
  | spec a s =>
    simp only [before, text] at hstart hstop hbefore hbefore'
    have hin := Mark.rest_past hbefore
    have hin' := Mark.rest_past hbefore'
    rw [Spec.bytes, List.append_assoc] at hin hin'
    have hlabel := Mark.toSpot_past hstart hin hin'
    simp only [event, specEvent, hstart, hlabel, hstop]

end Piece

end ImportGroups.Source
