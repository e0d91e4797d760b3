import ImportGroups.Proofs.Declarations.Nesting
import Mathlib.Data.List.Chain

/-!
What stands between the records of a source.

Between two specs of one declaration there are blanks, ends of specs and comments. A comment takes
three bytes at least, with the line feed behind it, and before the first spec of a declaration stands
the word `import`. So if two neighbouring records are two bytes apart at most then they come from one
declaration, and only blanks and ends of specs lie between them. This is so unless an error stands
before the second one.
-/

namespace ImportGroups.Source

open Text (Bytes)
open Automaton (specPhrases importPhrases blockLabels)

/-- A byte stands at the offset that is neither a line feed nor zero. -/
def Inked (src : Bytes) (i : Nat) : Prop := ∃ x, src[i]? = some x ∧ x ≠ lineFeed ∧ x ≠ 0

/-- The text from one offset to another one is longer than two bytes, or no other bytes stand there
than may stand between two specs of a group, or it is a comment of two bytes at the end of a line. -/
structure Bridged (src : Bytes) (a b : Nat) : Prop where
  le : a ≤ b
  text : a + 2 < b ∨ AllBytes IsGapByte src a b ∨
    a + 2 = b ∧ ∀ x ∈ src[b]?, x = lineFeed ∨ x = 0

namespace Bridged

variable {src : Bytes} {a b c : Nat}

theorem refl (src : Bytes) (a : Nat) : Bridged src a a :=
  ⟨Nat.le_refl a, .inr (.inl fun i hle hlt => absurd hlt (by omega))⟩

theorem of_clear (h : Clear src a b) (ha : 3 ≤ a) (hle : a ≤ b) : Bridged src a b := by
  rw [Clear, Nat.max_eq_right ha] at h
  exact ⟨hle, .inr (.inl (h.imp fun _ hx => .inl hx))⟩

theorem trans (h : Bridged src a b) (h' : Bridged src b c) : Bridged src a c := by
  obtain ⟨hle, htext⟩ := h
  obtain ⟨hle', htext'⟩ := h'
  refine ⟨Nat.le_trans hle hle', ?_⟩
  rcases htext with hlong | hbytes | ⟨htwo, hend⟩
  · exact .inl (by omega)
  · rcases htext' with hlong' | hbytes' | ⟨htwo', hend'⟩
    · exact .inl (by omega)
    · exact .inr (.inl (hbytes.append hbytes'))
    · by_cases hab : a = b
      · exact .inr (.inr ⟨by omega, hend'⟩)
      · exact .inl (by omega)
  · by_cases hbc : b = c
    · exact .inr (.inr ⟨by omega, hbc ▸ hend⟩)
    · exact .inl (by omega)

/-- No comment of two bytes stands right before a spec. -/
theorem allBytes (h : Bridged src a b) (hb : Inked src b) :
    a + 2 < b ∨ AllBytes IsGapByte src a b := by
  obtain ⟨x, hx, hfeed, hzero⟩ := hb
  rcases h.text with hlong | hbytes | ⟨-, hend⟩
  · exact .inl hlong
  · exact .inr hbytes
  · rcases hend x hx with h | h
    · exact absurd h hfeed
    · exact absurd h hzero

end Bridged

/-- The text from one offset to another one consists of records and what may stand between specs. -/
def Strung (src : Bytes) : Nat → List Record → Nat → Prop
  | a, [], b => Bridged src a b
  | a, r :: rs, b =>
    Bridged src a r.start.toNat ∧ Inked src r.start.toNat ∧ Strung src r.stop.toNat rs b

/-- Only bytes that may stand in a group lie between two records, or too many of them. -/
def Spaced (src : Bytes) (r r' : Record) : Prop :=
  r.stop.toNat + 2 < r'.start.toNat ∨ AllBytes IsGapByte src r.stop.toNat r'.start.toNat

namespace Strung

variable {src : Bytes} {a b c : Nat} {rs rs' : List Record}

theorem append (h : Strung src a rs b) (h' : Strung src b rs' c) : Strung src a (rs ++ rs') c := by
  induction rs generalizing a with
  | nil =>
    cases rs' with
    | nil => exact Bridged.trans h h'
    | cons r rs' => exact ⟨Bridged.trans h h'.1, h'.2⟩
  | cons r rs ih => exact ⟨h.1, h.2.1, ih h.2.2⟩

theorem isChain (h : Strung src a rs b) : rs.IsChain (Spaced src) := by
  induction rs generalizing a with
  | nil => exact .nil
  | cons r rs ih =>
    cases rs with
    | nil => exact .singleton r
    | cons r' rs => exact .cons_cons (h.2.2.1.allBytes h.2.2.2.1) (ih h.2.2)

end Strung

namespace Tree

variable {src : Bytes} {t : Tree} {ts : List Tree} {limit a b : Nat}

def Faultless (t : Tree) : Prop := ∀ spot isOpen, .fault spot isOpen ∉ t.outline

theorem Faultless.child {c : Tree} (h : t.Faultless) (hc : c ∈ t.children) : c.Faultless :=
  fun spot isOpen hmem => h spot isOpen (outline_subset hc hmem)

abbrev records (limit : Nat) (t : Tree) : List Record := headerRecords limit t.outline

theorem mem_outline_of_event {e : Event} (h : t.event? = some e) : e ∈ t.outline := by
  rw [outline_eq, h]
  exact List.mem_append_left _ (List.mem_singleton_self e)

theorem fault_of_error (h : t.label = .error) : .fault t.start.toSpot t.isOpenImport ∈ t.outline := by
  refine mem_outline_of_event ?_
  simp [event?, isVisible, isError, h, Label.isVisible]

/-- A tree without faults that may stand anywhere is a comment. -/
theorem IsExtra.comment (h : t.IsExtra) (hfaultless : t.Faultless) : t.label = .token .comment :=
  h.resolve_left fun herror => hfaultless _ _ (fault_of_error herror)

theorem records_token {s : Symbol} (h : t.Sound src) (hs : t.label = .token s) :
    t.records limit = [] :=
  (h.specless_of_token hs).headerRecords limit

theorem records_of_not_spec (h : t.label ≠ .phrase .importSpec) :
    t.records limit = t.children.flatMap (records limit) := by
  rw [records, headerRecords_outline, headerRecords_event limit h, List.nil_append]

/-- What ends a spec has bytes that may stand in a group. -/
theorem Composed.bridged_separator {s : Symbol} (h : t.Composed src) (hsound : t.Sound src)
    (hs : t.label = .token s) (hmem : s ∈ Symbol.separators) :
    Bridged src t.start.offset t.stop.offset := by
  have hfits := h.fits
  rw [Fits, hs] at hfits
  rcases hfits with ⟨-, hstop⟩ | ⟨-, hspelled⟩
  · rw [hstop]
    exact .refl src _
  · exact ⟨hsound.le, .inr (.inl ((hspelled.ends hmem).imp fun _ hx => .inr hx))⟩

theorem Composed.bridged_comment (h : t.Composed src) (hs : t.label = .token .comment) :
    Bridged src t.start.offset t.stop.offset := by
  have hfits := h.fits
  rw [Fits, hs] at hfits
  rcases hfits with ⟨-, hstop⟩ | ⟨-, hspelled⟩
  · rw [hstop]
    exact .refl src _
  · obtain ⟨hlength, hend⟩ := hspelled.comment rfl
    by_cases htwo : t.stop.offset = t.start.offset + 2
    · exact ⟨by omega, .inr (.inr ⟨htwo.symm, hend htwo⟩)⟩
    · exact ⟨by omega, .inl (by omega)⟩

theorem Composed.records_spec (h : t.Composed src) (hsound : t.Sound src)
    (hlabel : t.label = .phrase .importSpec) (hfaultless : t.Faultless) (hlimit : t.stop.offset ≤ limit) :
    ∃ path, t.records limit = [⟨path, t.start.offset, t.stop.offset⟩] := by
  rcases hsound.event_spec hlabel with hevent | ⟨path, hpath, hstring, hevent⟩
  · exact absurd (mem_outline_of_event hevent) (hfaultless _ _)
  · have hmem := List.mem_of_getLast? hpath
    have hstop : t.stop = path.stop := (h.joined hlabel).last path hpath
    obtain ⟨hstart, -⟩ := hsound.between.bounds path hmem
    obtain ⟨-, -, -, hlt, -⟩ := (hsound.children path hmem).encloses hstring
    have hshaped := hsound.shaped
    simp only [Shaped, hlabel] at hshaped
    have hnone : t.children.flatMap (fun c => headerRecords limit c.outline) = [] :=
      List.flatMap_eq_nil_iff.mpr fun c hc => (hshaped.specless c hc).headerRecords limit
    refine ⟨literalPath path.text, ?_⟩
    rw [records, headerRecords_outline, hnone, List.append_nil, hevent, headerRecords,
      Option.toList_some, List.filterMap_cons, List.filterMap_nil]
    dsimp only
    rw [if_pos (by rw [hstop] at hlimit; omega), hstop]

theorem Composed.inked_token {s : Symbol} (h : t.Composed src) (hs : t.label = .token s)
    (hloose : s ∉ Symbol.loose) (hvisible : s.isVisible = true) (hfaultless : t.Faultless) :
    Inked src t.start.offset := by
  have hfits := h.fits
  rw [Fits, hs] at hfits
  rcases hfits with ⟨hmissing, -⟩ | ⟨-, hspelled⟩
  · have hevent : t.event? = some (.fault t.start.toSpot t.isOpenImport) := by
      simp [event?, isVisible, hs, Label.isVisible, hvisible, hmissing]
    exact absurd (mem_outline_of_event hevent) (hfaultless _ _)
  · exact hspelled.ink hloose

theorem Composed.inked_dot (h : t.Composed src) (hlabel : t.label = .phrase .dotName)
    (hfaultless : t.Faultless) : Inked src t.start.offset := by
  have hjoined := h.joined hlabel
  obtain ⟨c, hc, hl⟩ := hjoined.leads (by simp)
  have hmem := List.mem_of_head? hc
  rw [hjoined.first c hc]
  exact (h.children c hmem).inked_token (List.mem_singleton.mp hl) (by decide) rfl (hfaultless.child hmem)

theorem Composed.inked_spec (h : t.Composed src) (hsound : t.Sound src)
    (hlabel : t.label = .phrase .importSpec) (hfaultless : t.Faultless) :
    Inked src t.start.offset := by
  have hjoined := h.joined hlabel
  obtain ⟨c, hc, hl⟩ := hjoined.leads (by simp)
  have hmem := List.mem_of_head? hc
  have hcomposed := h.children c hmem
  have hchild := hfaultless.child hmem
  have hstring : c.isString = true → Inked src c.start.offset := by
    intro hstring
    obtain ⟨x, hx, hbyte, -⟩ := (hsound.children c hmem).encloses hstring
    rcases hx with rfl | rfl
    · exact ⟨_, hbyte, by decide, by decide⟩
    · exact ⟨_, hbyte, by decide, by decide⟩
  rw [hjoined.first c hc]
  simp only [Automaton.leadLabels, List.mem_cons, List.not_mem_nil, or_false] at hl
  rcases hl with hl | hl | hl | hl | hl
  · exact hcomposed.inked_token hl (by decide) rfl hchild
  · exact hcomposed.inked_token hl (by decide) rfl hchild
  · exact hcomposed.inked_dot hl hchild
  · exact hstring (by simp [isString, hl])
  · exact hstring (by simp [isString, hl])

theorem strung_of_adjoin (limit : Nat) (hadjoin : Adjoin src a ts) (hbetween : Between ts a b) (ha : 3 ≤ a)
    (hts : ∀ c ∈ ts, Strung src c.start.offset (c.records limit) c.stop.offset) :
    Strung src a (ts.flatMap (records limit)) ((ts.getLast?.map (·.stop.offset)).getD a) := by
  induction ts generalizing a with
  | nil => exact Bridged.refl src a
  | cons c ts ih =>
    obtain ⟨hc, hrest⟩ := List.forall_mem_cons.mp hts
    obtain ⟨hstart, hle, hbetween⟩ := hbetween
    have hlead : Strung src a [] c.start.offset := Bridged.of_clear hadjoin.1 ha hstart
    have htail := ih hadjoin.2 hbetween (by omega) hrest
    have hlast : ((c :: ts).getLast?.map (·.stop.offset)).getD a =
        (ts.getLast?.map (·.stop.offset)).getD c.stop.offset := by
      cases ts <;> simp [List.getLast?_eq_some_getLast]
    rw [hlast, List.flatMap_cons]
    exact (hlead.append hc).append htail

theorem Composed.strung (h : t.Composed src) (hsound : t.Sound src) (hfaultless : t.Faultless)
    (hlimit : t.stop.offset ≤ limit) (hstart : 3 ≤ t.start.offset)
    (hlabel : t.label = .token .comment ∨ t.label ∈ blockLabels) :
    Strung src t.start.offset (t.records limit) t.stop.offset := by
  induction h with
  | @intro t hfits hchildren ih =>
    have hcomposed : t.Composed src := .intro hfits hchildren
    simp only [blockLabels, Symbol.separators, List.map_cons, List.map_nil, List.cons_append,
      List.nil_append, List.mem_cons, List.not_mem_nil, or_false] at hlabel
    rcases hlabel with hl | hl | hl | hl | hl | hl
    · rw [records_token hsound hl]
      exact hcomposed.bridged_comment hl
    iterate 3
      rw [records_token hsound hl]
      exact hcomposed.bridged_separator hsound hl (by simp [Symbol.separators])
    · obtain ⟨path, hrecords⟩ := hcomposed.records_spec hsound hl hfaultless hlimit
      rw [hrecords]
      exact ⟨Bridged.refl src _, hcomposed.inked_spec hsound hl hfaultless, Bridged.refl src _⟩
    · have hjoined := hcomposed.joined hl
      obtain ⟨hne, hspecs⟩ := hjoined.more rfl
      have hadjoin := hjoined.adjoin (by simp [importPhrases])
      have hlast := List.getLast?_eq_some_getLast hne
      rw [records_of_not_spec (by simp [hl]), hjoined.last _ hlast]
      have hall := strung_of_adjoin limit hadjoin hsound.between hstart fun c hc => by
        obtain ⟨hle, hle'⟩ := hsound.between.bounds c hc
        refine ih c hc (hsound.children c hc) (hfaultless.child hc) (by omega) (by omega) ?_
        refine (hspecs c hc).imp_left fun hextra => ?_
        exact (hjoined.extras c hc hextra).comment (hfaultless.child hc)
      rwa [hlast] at hall

theorem Adjoin.of_append {us : List Tree} (h : Adjoin src a (ts ++ us)) : Adjoin src a ts := by
  induction ts generalizing a with
  | nil => trivial
  | cons t ts ih => exact ⟨h.1, ih h.2⟩

theorem Composed.chain_block (h : t.Composed src) (hsound : t.Sound src) (hfaultless : t.Faultless)
    (hlimit : t.stop.offset ≤ limit) (hstart : 3 ≤ t.start.offset)
    (hlabel : t.label = .phrase .importSpecList) :
    (t.records limit).IsChain (Spaced src) := by
  have hjoined := h.joined hlabel
  obtain ⟨opening, inner, closing, hchildren, hopening, hclosing, hspecs⟩ := hjoined.block rfl
  have hadjoin := hjoined.adjoin (by simp [importPhrases])
  have hbetween := hsound.between
  have hsounds := hsound.children
  rw [hchildren] at hadjoin hbetween hsounds
  have hrecords : t.records limit = inner.flatMap (records limit) := by
    rw [records_of_not_spec (by simp [hlabel]), hchildren, List.flatMap_cons, List.flatMap_append,
      List.flatMap_singleton, records_token (hsounds opening (by simp)) hopening,
      records_token (hsounds closing (by simp)) hclosing, List.append_nil, List.nil_append]
  rw [hrecords]
  refine (strung_of_adjoin limit hadjoin.2.of_append hbetween.2.2.of_append.1 ?_ fun c hc => ?_).isChain
  · have := hbetween.1
    have := hbetween.2.1
    omega
  · have hc' : c ∈ t.children := by simp [hchildren, hc]
    obtain ⟨hle, hle'⟩ := hsound.between.bounds c hc'
    refine (h.children c hc').strung (hsound.children c hc') (hfaultless.child hc') (by omega)
      (by omega) ((hspecs c hc).imp_left fun hextra => ?_)
    exact (hjoined.extras c hc' hextra).comment (hfaultless.child hc')

theorem Composed.word (h : t.Composed src) (hlabel : t.label = .phrase .importDeclaration) :
    ∃ word rest, t.children = word :: rest ∧ (∃ s, word.label = .token s) ∧
      word.stop.offset = t.start.offset + 6 ∧ src[t.start.offset]? = some letterByte := by
  have hjoined := h.joined hlabel
  obtain ⟨word, inner, spec, hchildren, hword, hread, -, -⟩ := hjoined.declaration rfl
  have hstart : t.start = word.start := hjoined.first word (by rw [hchildren]; rfl)
  have hfits := (h.children word (by simp [hchildren])).fits
  rw [Fits, hword] at hfits
  rcases hfits with ⟨hmissing, -⟩ | ⟨-, hspelled⟩
  · simp [hread] at hmissing
  · obtain ⟨hstop, hbyte⟩ := hspelled.word rfl
    exact ⟨word, _, hchildren, ⟨_, hword⟩, by rw [hstart, hstop], by rw [hstart, hbyte]⟩

structure SpecOf (r : Record) (t : Tree) : Prop where
  label : t.label = .phrase .importSpec
  start : r.start = t.start.offset
  path : ∃ path ∈ t.children.getLast?, path.isString = true ∧ r.stop = path.stop.offset

theorem Sound.exists_specOf {r : Record} (h : t.Sound src) (hr : r ∈ t.records limit) :
    ∃ s, Inside s t ∧ s.SpecOf r := by
  obtain ⟨e, he, hrecord⟩ := List.mem_filterMap.mp hr
  obtain ⟨s, hs, hevent⟩ := mem_outline_iff.mp he
  have hmem : r ∈ headerRecords limit s.event?.toList := by
    rw [hevent]
    exact List.mem_filterMap.mpr ⟨e, List.mem_singleton_self e, hrecord⟩
  by_cases hlabel : s.label = .phrase .importSpec
  · rcases (hs.bounds h).1.event_spec hlabel with hfault | ⟨path, hpath, hstring, hshown⟩
    · rw [hfault] at hmem
      cases hmem
    · rw [hevent, Option.some.injEq] at hshown
      subst hshown
      dsimp only at hrecord
      split_ifs at hrecord
      cases hrecord
      exact ⟨s, hs, hlabel, rfl, path, hpath, hstring, rfl⟩
  · rw [headerRecords_event limit hlabel] at hmem
    cases hmem

theorem Composed.behind_start {s : Tree} (h : t.Composed src) (hsound : t.Sound src)
    (hlabel : t.label = .phrase .importDeclaration) (hs : Inside s t)
    (hspec : s.label = .phrase .importSpec) : t.start.offset + 6 ≤ s.start.offset := by
  obtain ⟨word, rest, hchildren, ⟨x, hword⟩, hstop, -⟩ := h.word hlabel
  have hbetween := hsound.between
  rw [hchildren] at hbetween
  cases hs with
  | refl =>
    rw [hlabel] at hspec
    cases hspec
  | @child c _ hs hc =>
    have hsounds := hsound.children c hc
    rw [hchildren, List.mem_cons] at hc
    rcases hc with rfl | hc
    · exact absurd hspec ((hsounds.specless_of_token hword).label_ne hs)
    · have := (hbetween.2.2.bounds c hc).1
      have := (hs.bounds hsounds).2.1
      omega

theorem Composed.word_le {r : Record} (h : t.Composed src) (hsound : t.Sound src)
    (hlabel : t.label = .phrase .importDeclaration) (hr : r ∈ t.records limit) :
    (t.start.offset + 6 : Int) ≤ r.start := by
  obtain ⟨s, hs, hspec⟩ := hsound.exists_specOf hr
  have := h.behind_start hsound hlabel hs hspec.label
  rw [hspec.start]
  omega

theorem Composed.chain_declaration (h : t.Composed src) (hsound : t.Sound src)
    (hfaultless : t.Faultless) (hlimit : t.stop.offset ≤ limit)
    (hlabel : t.label = .phrase .importDeclaration) :
    (t.records limit).IsChain (Spaced src) := by
  have hjoined := h.joined hlabel
  obtain ⟨word, rest, hrest, ⟨s, hword⟩, hstop, -⟩ := h.word hlabel
  obtain ⟨word', inner, spec, hchildren, -, -, hinner, hspec⟩ := hjoined.declaration rfl
  obtain ⟨rfl, rfl⟩ := List.cons_eq_cons.mp (hrest.symm.trans hchildren)
  have hbetween := hsound.between
  rw [hchildren] at hbetween
  have hnone : inner.flatMap (records limit) = [] := by
    refine List.flatMap_eq_nil_iff.mpr fun c hc => ?_
    have hc' : c ∈ t.children := by simp [hchildren, hc]
    exact records_token (hsound.children c hc')
      ((hjoined.extras c hc' (hinner c hc)).comment (hfaultless.child hc'))
  have hmem : spec ∈ t.children := by simp [hchildren]
  have hrecords : t.records limit = spec.records limit := by
    rw [records_of_not_spec (by simp [hlabel]), hchildren, List.flatMap_cons, List.flatMap_append,
      List.flatMap_singleton, hnone, records_token (hsound.children word (by simp [hchildren])) hword,
      List.nil_append, List.nil_append]
  obtain ⟨-, hle⟩ := hsound.between.bounds spec hmem
  have hstart := (hbetween.2.2.bounds spec (by simp)).1
  have hcomposed := h.children spec hmem
  have hspecSound := hsound.children spec hmem
  rw [hrecords]
  simp only [List.mem_cons, List.not_mem_nil, or_false] at hspec
  rcases hspec with hl | hl
  · exact (hcomposed.strung hspecSound (hfaultless.child hmem) (by omega) (by omega)
      (.inr (by simp [hl, blockLabels]))).isChain
  · exact hcomposed.chain_block hspecSound (hfaultless.child hmem) (by omega) (by omega) hl

/-- The tree is a part of an import declaration, or it is skipped. -/
def IsLoose (t : Tree) : Prop := t.label = .skipped ∨ ∃ p ∈ specPhrases, t.label = .phrase p

theorem Joined.not_isLoose {p : Phrase} {c : Tree} (h : t.Joined src p) (hp : p ∉ importPhrases)
    (hc : c ∈ t.children) : ¬ c.IsLoose := by
  rintro (hskipped | ⟨q, hq, hl⟩)
  · exact h.taken c hc hskipped
  · exact h.others hp c hc q hq hl

theorem Composed.behind_word {r : Record} (h : t.Composed src) (hsound : t.Sound src)
    (hloose : ¬ t.IsLoose) (hr : r ∈ t.records limit) :
    (t.start.offset + 6 : Int) ≤ r.start ∨
      ∃ spot isOpen, .fault spot isOpen ∈ t.outline ∧ spot.offset ≤ r.start := by
  induction h with
  | @intro t hfits hchildren ih =>
    have hcomposed : t.Composed src := .intro hfits hchildren
    cases hlabel : t.label with
    | token s =>
      rw [records_token hsound hlabel] at hr
      cases hr
    | error =>
      have hbounds := ((hsound.inOrder limit).located r hr).bounds
      exact .inr ⟨_, _, fault_of_error hlabel, hbounds.1⟩
    | skipped => exact absurd (.inl hlabel) hloose
    | phrase p =>
      by_cases hp : p ∈ importPhrases
      · simp only [importPhrases, List.mem_cons, List.not_mem_nil, or_false] at hp
        rcases hp with rfl | rfl | rfl
        · exact .inl (hcomposed.word_le hsound hlabel hr)
        · exact absurd (.inr ⟨_, by simp [specPhrases], hlabel⟩) hloose
        · exact absurd (.inr ⟨_, by simp [specPhrases], hlabel⟩) hloose
      · have hspec : t.label ≠ .phrase .importSpec := by
          intro hspec
          exact hloose (.inr ⟨_, by simp [specPhrases], hspec⟩)
        rw [records_of_not_spec hspec] at hr
        obtain ⟨c, hc, hr⟩ := List.mem_flatMap.mp hr
        have hnot := (hcomposed.joined hlabel).not_isLoose hp hc
        have hle := (hsound.between.bounds c hc).1
        rcases ih c hc (hsound.children c hc) hnot hr with hword | ⟨spot, isOpen, hspot, hoffset⟩
        · exact .inl (by omega)
        · exact .inr ⟨spot, isOpen, outline_subset hc hspot, hoffset⟩

end Tree

/-- What stands between two neighbouring records. -/
inductive Parted (src : Bytes) (events : List Event) (limit : Nat) (r r' : Record) : Prop where
  | apart : r.stop + 2 < r'.start → Parted src events limit r r'
  /-- Both come from one declaration. -/
  | linked {start stop : Spot} : .importDeclaration start stop ∈ events → start.offset ≤ r.start →
      r'.stop ≤ stop.offset → Spaced src r r' → Parted src events limit r r'
  /-- There is a fault in a declaration. -/
  | faulty {start stop spot : Spot} {isOpen : Bool} : .importDeclaration start stop ∈ events →
      start.offset < limit → .fault spot isOpen ∈ events → spot.offset ≤ stop.offset →
      Parted src events limit r r'
  /-- There is a fault before the second record. -/
  | behind {spot : Spot} {isOpen : Bool} : .fault spot isOpen ∈ events → spot.offset ≤ r'.start →
      Parted src events limit r r'

section Parted

variable {src : Bytes} {events events' : List Event} {limit : Nat} {r r' : Record}

theorem Parted.mono (h : Parted src events limit r r') (hsub : events ⊆ events') :
    Parted src events' limit r r' := by
  cases h with
  | apart h => exact .apart h
  | linked hdecl hstart hstop hspaced => exact .linked (hsub hdecl) hstart hstop hspaced
  | faulty hdecl hlimit hspot hle => exact .faulty (hsub hdecl) hlimit (hsub hspot) hle
  | behind hspot hle => exact .behind (hsub hspot) hle

theorem isChain_flatMap {α β : Type} {R : β → β → Prop} {f : α → List β} {l : List α}
    (h : ∀ a ∈ l, (f a).IsChain R) (hl : l.Pairwise fun a b => ∀ x ∈ f a, ∀ y ∈ f b, R x y) :
    (l.flatMap f).IsChain R := by
  induction l with
  | nil => exact .nil
  | cons a l ih =>
    obtain ⟨ha, hrest⟩ := List.forall_mem_cons.mp h
    obtain ⟨hfirst, hpairs⟩ := List.pairwise_cons.mp hl
    rw [List.flatMap_cons]
    refine ha.append (ih hrest hpairs) fun x hx y hy => ?_
    obtain ⟨b, hb, hy⟩ := List.mem_flatMap.mp (List.mem_of_head? hy)
    exact hfirst b hb x (List.mem_of_getLast? hx) y hy

end Parted

namespace Tree

variable {src : Bytes} {t : Tree} {limit : Nat}

theorem Joined.event (h : t.Joined src .importDeclaration)
    (hlabel : t.label = .phrase .importDeclaration) :
    t.event? = some (.importDeclaration t.start.toSpot t.stop.toSpot) := by
  have hvisible : t.isVisible = true := by rw [isVisible, hlabel]; rfl
  have herror : t.isError = false := by rw [isError, hlabel]; rfl
  simp [event?, hvisible, herror, h.read, hlabel]

theorem Sound.fault_le {spot : Spot} {isOpen : Bool} (h : t.Sound src)
    (hspot : .fault spot isOpen ∈ t.outline) :
    t.start.offset ≤ spot.offset ∧ spot.offset ≤ t.stop.offset := by
  obtain ⟨c, hc, hevent⟩ := mem_outline_iff.mp hspot
  obtain ⟨hsound, hstart, hstop⟩ := hc.bounds h
  have hle := hsound.le
  have heq : spot = c.start.toSpot := by
    unfold event? at hevent
    split_ifs at hevent
    · cases hevent
      rfl
    · split at hevent
      · cases hevent
      · cases hevent
      · obtain ⟨path, -, hpath⟩ := Option.map_eq_some_iff.mp hevent
        cases hpath
      · cases hevent
  subst heq
  exact ⟨hstart, Nat.le_trans hle hstop⟩

theorem start_lt_of_mem_records {r : Record} (hr : r ∈ t.records limit) : r.start < limit := by
  obtain ⟨e, -, he⟩ := List.mem_filterMap.mp hr
  split at he
  · split_ifs at he
    cases he
    dsimp only
    omega
  · cases he

theorem Composed.isChain_declaration (h : t.Composed src) (hsound : t.Sound src)
    (hlabel : t.label = .phrase .importDeclaration)
    (hlimit : t.start.offset < limit → t.stop.offset ≤ limit) :
    (t.records limit).IsChain (Parted src t.outline limit) := by
  have hevent := mem_outline_of_event ((h.joined hlabel).event hlabel)
  have hlocated := (hsound.inOrder limit).located
  have hstart : ∀ r ∈ t.records limit, t.start.offset < limit := by
    intro r hr
    have hlt := start_lt_of_mem_records hr
    have hle := (hlocated r hr).bounds.1
    omega
  by_cases hfaultless : t.Faultless
  · cases hrecords : t.records limit with
    | nil => exact .nil
    | cons r rs =>
      have hstop := hlimit (hstart r (by simp [hrecords]))
      rw [← hrecords]
      refine (h.chain_declaration hsound hfaultless hstop hlabel).imp_of_mem_imp ?_
      intro r r' hr hr' hspaced
      exact .linked hevent (hlocated r hr).bounds.1 (hlocated r' hr').bounds.2.2 hspaced
  · simp only [Faultless, not_forall, not_not] at hfaultless
    obtain ⟨spot, isOpen, hspot⟩ := hfaultless
    refine ((hsound.inOrder limit).apart.imp_of_mem fun hr _ _ => ?_).isChain
    exact .faulty hevent (hstart _ hr) hspot (hsound.fault_le hspot).2

theorem Composed.isChain (h : t.Composed src) (hsound : t.Sound src) (hloose : ¬ t.IsLoose)
    (hlimit : ∀ c, Inside c t → c.label = .phrase .importDeclaration → c.start.offset < limit →
      c.stop.offset ≤ limit) : (t.records limit).IsChain (Parted src t.outline limit) := by
  induction h with
  | @intro t hfits hchildren ih =>
    have hcomposed : t.Composed src := .intro hfits hchildren
    have hlocated := (hsound.inOrder limit).located
    cases hlabel : t.label with
    | token s =>
      rw [records_token hsound hlabel]
      exact .nil
    | error =>
      refine ((hsound.inOrder limit).apart.imp_of_mem fun _ hr' _ => ?_).isChain
      exact .behind (fault_of_error hlabel) (hlocated _ hr').bounds.1
    | skipped => exact absurd (.inl hlabel) hloose
    | phrase p =>
      by_cases hp : p ∈ importPhrases
      · simp only [importPhrases, List.mem_cons, List.not_mem_nil, or_false] at hp
        rcases hp with rfl | rfl | rfl
        · exact hcomposed.isChain_declaration hsound hlabel (hlimit t .refl hlabel)
        · exact absurd (.inr ⟨_, by simp [specPhrases], hlabel⟩) hloose
        · exact absurd (.inr ⟨_, by simp [specPhrases], hlabel⟩) hloose
      · have hspec : t.label ≠ .phrase .importSpec := by
          intro hspec
          exact hloose (.inr ⟨_, by simp [specPhrases], hspec⟩)
        have hnot := fun c hc => (hcomposed.joined hlabel).not_isLoose (c := c) hp hc
        rw [records_of_not_spec hspec]
        refine isChain_flatMap (fun c hc => ?_) ?_
        · have hchain := ih c hc (hsound.children c hc) (hnot c hc) fun d hd => hlimit d (.child hd hc)
          exact hchain.imp fun _ _ hparted => hparted.mono (outline_subset hc)
        · refine hsound.between.pairwise.imp_of_mem fun {c c'} hc hc' hle r hr r' hr' => ?_
          have hbounds := (((hsound.children c hc).inOrder limit).located r hr).bounds
          rcases (hchildren c' hc').behind_word (hsound.children c' hc') (hnot c' hc') hr' with
            hword | ⟨spot, isOpen, hspot, hoffset⟩
          · exact .apart (by omega)
          · exact .behind (outline_subset hc' hspot) hoffset

end Tree

end ImportGroups.Source
