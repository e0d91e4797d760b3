import ImportGroups.Proofs.Yaml.Reading
import ImportGroups.Proofs.Yaml.Scanning
import ImportGroups.Yaml.Reader

/-!
What a reader keeps of a text.

A reader that has kept nothing but a version keeps nothing else of a text that it loads, nor of one
that it cannot read. The version stays as it is if no line of the text asks for one, and then it
matters for the value only where it is not the one that a fresh reader takes.
-/

namespace ImportGroups.Yaml

/-- Whole lines, and behind them nothing that takes a column. -/
def AtMargin (before : List Char) : Prop :=
  ∃ lines marks, before = lines ++ marks ∧ (∀ c, lines.getLast? = some c → c = '\n') ∧
    ∀ c ∈ marks, c.toNat = 0xFEFF

/-- A line of the text begins as a version directive does, byte order marks aside. -/
def AsksVersion (text : List Char) : Prop :=
  ∃ before rest, text = before ++ "%YAML".toList ++ rest ∧ AtMargin before

theorem atMargin_nil : AtMargin [] := ⟨[], [], rfl, by simp, by simp⟩

theorem atMargin_lineFeed (before : List Char) : AtMargin (before ++ ['\n']) :=
  ⟨before ++ ['\n'], [], by simp, by simp, by simp⟩

theorem AtMargin.mark {before : List Char} (h : AtMargin before) {c : Char}
    (hc : c.toNat = 0xFEFF) : AtMargin (before ++ [c]) := by
  obtain ⟨lines, marks, rfl, hlines, hmarks⟩ := h
  refine ⟨lines, marks ++ [c], by simp, hlines, fun d hd => ?_⟩
  rcases List.mem_append.mp hd with hin | hlast
  · exact hmarks d hin
  · rwa [List.mem_singleton.mp hlast]

/-- A place in a text; in the first column nothing but byte order marks stands before it in its
line. -/
def Cursor.IsIn (text : List Char) (c : Cursor) : Prop :=
  ∃ before, text = before ++ c.chars ∧ (c.column = 0 → AtMargin before)

theorem Cursor.IsIn.next {text : List Char} {c : Cursor} (h : c.IsIn text) : c.next.IsIn text := by
  obtain ⟨before, htext, hmargin⟩ := h
  unfold Cursor.next
  split
  · exact ⟨before, htext, hmargin⟩
  · rename_i ch rest hchars
    have hsplit : text = (before ++ [ch]) ++ rest := by rw [htext, hchars, List.append_cons]
    split_ifs with hfeed hmark
    · rw [beq_iff_eq] at hfeed
      exact ⟨_, hsplit, fun _ => hfeed ▸ atMargin_lineFeed before⟩
    · exact ⟨_, hsplit, fun hcolumn => (hmargin hcolumn).mark (by simpa using hmark)⟩
    · exact ⟨_, hsplit, fun hcolumn => absurd hcolumn (Nat.succ_ne_zero _)⟩

theorem admits_unversioned {text : List Char} (h : ¬ AsksVersion text) :
    Admits (Cursor.IsIn text) fun t => ∀ v, t ≠ .directive (.version v) where
  next := Cursor.IsIn.next
  version := by
    rintro c ⟨before, htext, hmargin⟩ hcolumn ⟨rest, hrest⟩
    refine absurd ⟨before, rest, ?_, hmargin hcolumn⟩ h
    rw [htext, ← hrest, List.append_assoc]
  other _ hv := hv

theorem ofText_ok {v : Version} {text : List Char} {scan : ScanState}
    (h : ScanState.ofText v text = .ok scan) :
    scan.tokens = [] ∧ scan.cursor.IsIn text := by
  obtain ⟨-, -, h⟩ := bind_eq_ok_iff.mp h
  cases h
  refine ⟨rfl, ?_⟩
  cases text with
  | nil => exact ⟨[], rfl, fun _ => atMargin_nil⟩
  | cons c cs =>
    by_cases hmark : c.toNat = 0xFEFF
    · simp only [hmark, beq_self_eq_true, if_true]
      exact ⟨[c], rfl, fun _ => atMargin_nil.mark hmark⟩
    · have hb : (c.toNat == 0xFEFF) = false := by simpa using hmark
      simp only [hb, Bool.false_eq_true, if_false]
      exact ⟨[], rfl, fun _ => atMargin_nil⟩

theorem run_adoptVersion (v : Version) (s : ReadState) :
    (adoptVersion (some v)).run s =
      match s.version? with
      | none => if v == .v11 || v == .v12 then (.ok (), { s with version? := some v })
        else (.error .refusedVersion, s)
      | some _ => (.ok (), s) := by
  obtain ⟨scan, nodes, anchors, handles, version?⟩ := s
  cases version? with
  | some w => rfl
  | none =>
    show (if v == .v11 || v == .v12 then
        set (ReadState.mk scan nodes anchors handles (some v))
      else throw .refusedVersion : Read Unit).run _ = _
    split_ifs <;> rfl

section Invariants

variable {I : ReadState → Prop} {A : Token → Prop}

/-- A property of one state that the steps outside of a document keep. -/
theorem steady_of_invariant
    (ready : ∀ {s scan}, I s → s.scan.ready = .ok scan →
      I { s with scan } ∧ A (scan.tokens.headD .streamEnd))
    (take : ∀ {s}, I s → I { s with scan := s.scan.take })
    (handles : ∀ {s} handles, I s → I { s with handles })
    (version : ∀ {s v}, v = .v11 ∨ v = .v12 → I s → I { s with version? := some v }) :
    Steady (fun s s' => s' = s ∧ I s) A where
  view := by
    rintro s s' ⟨rfl, -⟩
    rfl
  ready := by
    rintro s s' scan ⟨rfl, hs⟩ hready
    exact ⟨⟨rfl, (ready hs hready).1⟩, (ready hs hready).2⟩
  take := by
    rintro s s' ⟨rfl, hs⟩
    exact ⟨rfl, take hs⟩
  handles := by
    rintro s s' hs ⟨rfl, hI⟩
    exact ⟨rfl, handles hs hI⟩
  adopt := by
    rintro v - s s' ⟨rfl, hs⟩
    refine ⟨rfl, ⟨rfl, ?_⟩, fun _ _ => trivial⟩
    rw [run_adoptVersion]
    split
    · split_ifs with hv
      · exact version (by simpa using hv) hs
      · exact hs
    · exact hs

end Invariants

def Known (version? : Option Version) : Prop :=
  version? = none ∨ version? = some .v11 ∨ version? = some .v12

theorem respected_known :
    Respected (fun s s' => s' = s ∧ Known s.version?) fun _ => True where
  toSteady := steady_of_invariant (fun hs _ => ⟨hs, trivial⟩) (fun hs => hs) (fun _ hs => hs)
    fun hv _ => by
      rcases hv with rfl | rfl
      · exact .inr (.inl rfl)
      · exact .inr (.inr rfl)
  nodes := by
    rintro s s' nodes ⟨rfl, hs⟩
    exact ⟨rfl, hs⟩
  anchors := by
    rintro s s' anchors ⟨rfl, hs⟩
    exact ⟨rfl, hs⟩

theorem steady_nodes (nodes : Array Node) :
    Steady (fun s s' => s' = s ∧ s.nodes = nodes) fun _ => True :=
  steady_of_invariant (fun hs _ => ⟨hs, trivial⟩) (fun hs => hs) (fun _ hs => hs) fun _ hs => hs

/-- The states have the versions `v` and `w` and are the same else, in a text that asks for none. -/
structure Reversioned (text : List Char) (v w : Option Version) (s s' : ReadState) : Prop where
  version : s.version? = v
  eq : s' = { s with version? := w }
  scan : s.scan.Within (Cursor.IsIn text) fun t => ∀ v, t ≠ .directive (.version v)

theorem respected_reversioned {text : List Char} (h : ¬ AsksVersion text) (v w : Option Version) :
    Respected (Reversioned text v w) fun t => ∀ v, t ≠ .directive (.version v) where
  view := by
    rintro s s' ⟨-, rfl, -⟩
    rfl
  ready := by
    rintro s s' scan ⟨hv, rfl, hscan⟩ hready
    have hafter := hscan.ready (admits_unversioned h) hready
    exact ⟨⟨hv, rfl, hafter.1⟩, hafter.2⟩
  take := by
    rintro s s' ⟨hv, rfl, hscan⟩
    exact ⟨hv, rfl, hscan.take⟩
  handles := by
    rintro s s' handles ⟨hv, rfl, hscan⟩
    exact ⟨hv, rfl, hscan⟩
  adopt := by
    intro v hv
    exact absurd rfl (hv v)
  nodes := by
    rintro s s' nodes ⟨hv, rfl, hscan⟩
    exact ⟨hv, rfl, hscan⟩
  anchors := by
    rintro s s' anchors ⟨hv, rfl, hscan⟩
    exact ⟨hv, rfl, hscan⟩

theorem documentNode_none {fuel : Nat} {s s' : ReadState}
    (h : (documentNode fuel).run s = (.ok none, s')) : s'.nodes = s.nodes := by
  obtain ⟨t, s₁, hpeek, h⟩ := run_bind_ok h
  have hkept := ((steady_nodes s.nodes).peek s s ⟨rfl, rfl⟩).2.1.2
  rw [hpeek] at hkept
  -- Whatever else the first token is, a node is read.
  have hhead : ∀ {s}, (do
      documentHead fuel
      if ← atDocumentEdge then return some (← emptyNode)
      else return some (← node fuel 0 true false)).run s ≠ (.ok none, s') := by
    intro s h
    obtain ⟨_, _, -, h⟩ := run_bind_ok h
    obtain ⟨edge, _, -, h⟩ := run_bind_ok h
    cases edge with
    | true =>
      obtain ⟨_, _, -, h⟩ := run_bind_ok h
      cases h
    | false =>
      obtain ⟨_, _, -, h⟩ := run_bind_ok h
      cases h
  split at h
  · cases h
    exact hkept
  · exact absurd h hhead
  · exact absurd h hhead
  · obtain ⟨_, _, -, h⟩ := run_bind_ok h
    obtain ⟨_, _, -, h⟩ := run_bind_ok h
    cases h

theorem document_none {fuel : Nat} {s s' : ReadState}
    (h : (document fuel).run s = (.ok none, s')) : s'.nodes = s.nodes := by
  obtain ⟨root?, s₁, hnode, h⟩ := run_bind_ok h
  cases root? with
  | none =>
    cases h
    exact documentNode_none hnode
  | some i =>
    obtain ⟨_, _, -, h⟩ := run_bind_ok h
    obtain ⟨_, _, -, h⟩ := run_bind_ok h
    obtain ⟨_, _, -, h⟩ := run_bind_ok h
    cases h

namespace Reader

def bare (version? : Option Version) : Reader where
  version?

/-- The text leaves nothing to be built: it is loaded, or it cannot be read, or the building of its
value fails when nothing else is to be built. -/
inductive Settles (r : Reader) (text : List Char) : Prop where
  | loaded {value : Value} (h : (r.load text).1 = .ok value)
  | unread {e : LoadError} (h : (r.readNode text).1 = .error e)
  | unbuilt {x : Option Nat × Version} (h : (r.readNode text).1 = .ok x)
      (idle : (r.load text).2.builder.isIdle)

variable {v : Option Version} {text : List Char} {scan : ScanState}

theorem known_after (hv : Known v) (scan : ScanState) (fuel : Nat) :
    Known ((document fuel).run ((bare v).before scan)).2.version? :=
  (respected_known.document fuel _ _ ⟨rfl, hv⟩).2.1.2

theorem reversioned_before (hscan : ScanState.ofText (bare v).version text = .ok scan)
    (w : Option Version) : Reversioned text v w ((bare v).before scan) ((bare w).before scan) := by
  obtain ⟨htokens, hplace⟩ := ofText_ok hscan
  exact ⟨rfl, rfl, hplace, by simp [before, htokens]⟩

theorem version_after (fuel : Nat) (hscan : ScanState.ofText (bare v).version text = .ok scan)
    (h : ¬ AsksVersion text) : ((document fuel).run ((bare v).before scan)).2.version? = v :=
  ((respected_reversioned h v v).document fuel _ _ (reversioned_before hscan v)).2.1.version

/-- A value does not depend on what a reader keeps beside what is to be built. -/
theorem build_fst {r r' : Reader} (h : r'.builder = r.builder) {w : Version} {root : Nat} :
    (r'.build w root).1 = (r.build w root).1 := by
  rw [build, build, h]
  rcases (buildDocument w root).run r.builder with ⟨e | value, builder⟩ <;> rfl

section

variable {r : Reader} {after : ReadState} {e : LoadError} {root? : Option Nat}

theorem readNode_of_error (hscan : ScanState.ofText r.version text = .ok scan)
    (hdoc : (document (12 * text.length + 50)).run (r.before scan) = (.error e, after)) :
    r.readNode text = (.error e, r.giveUp after) := by
  rw [readNode, hscan]
  dsimp only
  rw [hdoc]

theorem readNode_of_ok (hscan : ScanState.ofText r.version text = .ok scan)
    (hdoc : (document (12 * text.length + 50)).run (r.before scan) = (.ok root?, after)) :
    r.readNode text = (.ok (root?, after.scan.version), r.keep after) := by
  rw [readNode, hscan]
  dsimp only
  rw [hdoc]

theorem load_of_scan_error (hscan : ScanState.ofText r.version text = .error e) :
    r.load text = (.error e, r) := by
  rw [load, readNode, hscan]

theorem load_of_error {r' : Reader} (hread : r.readNode text = (.error e, r')) :
    r.load text = (.error e, r') := by
  rw [load, hread]

theorem load_of_none {r' : Reader} {w : Version} (hread : r.readNode text = (.ok (none, w), r')) :
    r.load text = (.ok .null, r') := by
  rw [load, hread]

theorem load_of_some {r' : Reader} {root : Nat} {w : Version}
    (hread : r.readNode text = (.ok (some root, w), r')) : r.load text = r'.build w root := by
  rw [load, hread]

end

/-- Of a text that settles, a reader keeps no more than a version, and that only of one which asks for
it. -/
theorem load_settled (hv : Known v) (h : (bare v).Settles text) :
    ∃ w, ((bare v).load text).2 = bare w ∧ Known w ∧ (¬ AsksVersion text → w = v) := by
  cases hscan : ScanState.ofText (bare v).version text with
  | error e =>
    rw [load_of_scan_error hscan]
    exact ⟨v, rfl, hv, fun _ => rfl⟩
  | ok scan =>
    have hknown := known_after hv scan (12 * text.length + 50)
    have hversion := version_after (12 * text.length + 50) hscan
    rcases hdoc : (document (12 * text.length + 50)).run ((bare v).before scan) with ⟨e | root?, after⟩
    · -- The text cannot be read to its end.
      rw [hdoc] at hknown hversion
      refine ⟨after.version?, ?_, hknown, hversion⟩
      rw [load_of_error (readNode_of_error hscan hdoc)]
      rfl
    · have hread := readNode_of_ok hscan hdoc
      rw [hdoc] at hknown hversion
      refine ⟨after.version?, ?_, hknown, hversion⟩
      cases root? with
      | none =>
        rw [load_of_none hread, keep, document_none hdoc]
        rfl
      | some root =>
        have hload := load_of_some hread
        have hbare : { (bare v).keep after with builder := {} } = bare after.version? := rfl
        rw [hload, build]
        rcases hbuild : (buildDocument after.scan.version root).run ((bare v).keep after).builder with
          ⟨e | value, builder⟩
        · have hidle : builder.isIdle = true := by
            cases h with
            | loaded h => simp [hload, build, hbuild] at h
            | unread h => simp [hread] at h
            | unbuilt _ hidle =>
              rw [hload, build, hbuild] at hidle
              by_contra hbusy
              simp [hbusy] at hidle
          dsimp only
          rw [hidle, if_pos rfl]
          exact hbare
        · exact hbare

theorem load_default (h : ¬ AsksVersion text) :
    ((bare (some .v12)).load text).1 = ((bare none).load text).1 := by
  cases hscan : ScanState.ofText (bare none).version text with
  | error e =>
    have hscan' : ScanState.ofText (bare (some .v12)).version text = .error e := hscan
    rw [load_of_scan_error hscan, load_of_scan_error hscan']
  | ok scan =>
    have hscan' : ScanState.ofText (bare (some .v12)).version text = .ok scan := hscan
    obtain ⟨hresult, hafter, -⟩ := (respected_reversioned h none (some .v12)).document
      (12 * text.length + 50) _ _ (reversioned_before hscan (some .v12))
    rcases hfresh : (document (12 * text.length + 50)).run ((bare none).before scan) with
      ⟨result, after⟩
    rcases hlater : (document (12 * text.length + 50)).run ((bare (some .v12)).before scan) with
      ⟨result', after'⟩
    rw [hfresh, hlater] at hresult hafter
    have heq := hafter.eq
    dsimp only at hresult heq
    subst hresult heq
    cases result' with
    | error e =>
      rw [load_of_error (readNode_of_error hscan hfresh),
        load_of_error (readNode_of_error hscan' hlater)]
    | ok root? =>
      cases root? with
      | none =>
        rw [load_of_none (readNode_of_ok hscan hfresh), load_of_none (readNode_of_ok hscan' hlater)]
      | some root =>
        rw [load_of_some (readNode_of_ok hscan hfresh), load_of_some (readNode_of_ok hscan' hlater)]
        apply build_fst
        rfl

end Reader

end ImportGroups.Yaml
