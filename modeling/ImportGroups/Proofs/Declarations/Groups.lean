import ImportGroups.Proofs.Declarations.Gaps
import ImportGroups.Proofs.FirstViolation
import Mathlib.Data.List.Perm.Subperm

/-!
Groups and import declarations.

A group lies in one declaration, so there are at least as many groups as declarations with a spec. The
one exception to the first part is text that does not fit behind the header. It does no harm to the
imports, and it may hold specs that count as imports and that no declaration holds.
-/

namespace ImportGroups

open Text (Bytes)
open Source

/-- The record lies between two offsets. -/
def Record.Within (r : Record) (d : Nat × Nat) : Prop := d.1 ≤ r.start ∧ r.stop ≤ d.2

instance (r : Record) (d : Nat × Nat) : Decidable (r.Within d) :=
  inferInstanceAs (Decidable (_ ∧ _))

section Counting

variable {rs : List Record} {g : Group} {ds : List (Nat × Nat)}

theorem Group.one_side {c : Int} (hg : g.IsChain Adjacent) (hpos : ∀ r ∈ g, r.start < r.stop)
    (horder : g.Pairwise fun r r' => r.stop ≤ r'.start)
    (hcut : ∀ r ∈ g, r.stop ≤ c ∨ c + 6 ≤ r.start) :
    (∀ r ∈ g, r.stop ≤ c) ∨ ∀ r ∈ g, c + 6 ≤ r.start := by
  induction g with
  | nil => exact .inl (List.forall_mem_nil _)
  | cons r g ih =>
    obtain ⟨hr, hrest⟩ := List.forall_mem_cons.mp hcut
    obtain ⟨hpos, hposRest⟩ := List.forall_mem_cons.mp hpos
    obtain ⟨hfirst, horder⟩ := List.pairwise_cons.mp horder
    cases g with
    | nil => exact hr.imp (by simp) (by simp)
    | cons r' g =>
      have hadjacent : r'.start - r.stop ≤ 2 := (List.isChain_cons_cons.mp hg).1
      have hle := hfirst r' List.mem_cons_self
      have hpos' := hposRest r' List.mem_cons_self
      rcases ih hg.tail hposRest horder hrest with h | h
      · have := h r' List.mem_cons_self
        exact .inl (List.forall_mem_cons.mpr ⟨by omega, h⟩)
      · have := h r' List.mem_cons_self
        exact .inr (List.forall_mem_cons.mpr ⟨by omega, h⟩)

/-- Before each of the stretches stands a word, and each holds a record. So there are as many groups. -/
theorem length_le_groups (hpos : ∀ r ∈ rs, r.start < r.stop)
    (horder : rs.Pairwise fun r r' => r.stop ≤ r'.start) (hds : ds.Pairwise fun d d' => d.2 ≤ d'.1)
    (hheld : ∀ d ∈ ds, ∃ r ∈ rs, r.Within d)
    (hcut : ∀ d ∈ ds, ∀ r ∈ rs, r.stop ≤ d.1 ∨ (d.1 : Int) + 6 ≤ r.start) :
    ds.length ≤ (groups rs).length := by
  have hsub : ∀ g ∈ groups rs, g.Sublist rs := by
    intro g hg
    rw [← groups_flatten rs]
    exact List.sublist_flatten_of_mem hg
  have hgroup : ∀ d ∈ ds, ∃ g ∈ groups rs, ∃ r ∈ g, r.Within d := by
    intro d hd
    obtain ⟨r, hr, hwithin⟩ := hheld d hd
    rw [← groups_flatten rs] at hr
    obtain ⟨g, hg, hr⟩ := List.mem_flatten.mp hr
    exact ⟨g, hg, r, hr, hwithin⟩
  choose! f hmem hf using hgroup
  have hnodup : (ds.map f).Nodup := by
    refine List.pairwise_map.mpr (hds.imp_of_mem fun {d d'} hd hd' hle heq => ?_)
    obtain ⟨r, hr, hwithin⟩ := hf d hd
    obtain ⟨r', hr', hwithin'⟩ := hf d' hd'
    have hrs := hsub _ (hmem d' hd')
    have hside := Group.one_side ((groups_gapPartition rs).tight _ (hmem d' hd'))
      (fun x hx => hpos x (hrs.subset hx)) (horder.sublist hrs)
      (fun x hx => hcut d' hd' x (hrs.subset hx))
    have := hpos r (hsub _ (hmem d hd) |>.subset hr)
    have := hpos r' (hrs.subset hr')
    have := hwithin.2
    have := hwithin'.1
    rcases hside with h | h
    · have := h r' hr'
      omega
    · have := h r (heq ▸ hr)
      omega
  have hsubset : ds.map f ⊆ groups rs := by
    intro g hg
    obtain ⟨d, hd, rfl⟩ := List.mem_map.mp hg
    exact hmem d hd
  rw [← List.length_map f]
  exact (List.subperm_of_subset hnodup hsubset).length_le

end Counting

theorem rel_of_isChain {α : Type} {R : α → α → Prop} {a b : α} {l : List α} (h : l.IsChain R)
    (hab : [a, b] <:+: l) : R a b := by
  obtain ⟨xs, ys, rfl⟩ := hab
  exact (List.isChain_cons_cons.mp h.left_of_append.right_of_append).1

namespace Source

namespace Tree

variable {src : Bytes} {t d s : Tree} {r : Record}

def Barren (t : Tree) : Prop :=
  ∀ d, Inside d t → d.label = .phrase .importDeclaration → ∀ s, Inside s d → s.label ≠ .phrase .importSpec

theorem barren_of_specless (h : t.Specless) : t.Barren :=
  fun _ hd _ _ hs => h.label_ne (hs.trans hd)

theorem barren_of_children (hlabel : t.label ≠ .phrase .importDeclaration)
    (h : ∀ c ∈ t.children, c.Barren) : t.Barren := by
  intro d hd hdecl s hs
  cases hd with
  | refl => exact absurd hdecl hlabel
  | child hd hc => exact h _ hc d hd hdecl s hs

theorem Sound.barren_token {x : Symbol} (h : t.Sound src) (hlabel : t.label = .token x) : t.Barren :=
  barren_of_specless (h.specless_of_token hlabel)

theorem Sound.barren_spec (h : t.Sound src) (hlabel : t.label = .phrase .importSpec) : t.Barren := by
  have hshaped := h.shaped
  simp only [Shaped, hlabel] at hshaped
  exact barren_of_children (by simp [hlabel]) fun c hc => barren_of_specless (hshaped.specless c hc)

theorem Composed.barren (h : t.Composed src) (hsound : t.Sound src) (hfaultless : t.Faultless)
    (hlabel : t.label = .token .comment ∨ t.label ∈ Automaton.blockLabels) : t.Barren := by
  induction h with
  | @intro t hfits hchildren ih =>
    have hcomposed : t.Composed src := .intro hfits hchildren
    simp only [Automaton.blockLabels, Symbol.separators, List.map_cons, List.map_nil, List.cons_append,
      List.nil_append, List.mem_cons, List.not_mem_nil, or_false] at hlabel
    rcases hlabel with hl | hl | hl | hl | hl | hl
    iterate 4 exact hsound.barren_token hl
    · exact hsound.barren_spec hl
    · have hjoined := hcomposed.joined hl
      refine barren_of_children (by simp [hl]) fun c hc => ?_
      refine ih c hc (hsound.children c hc) (hfaultless.child hc) ?_
      refine ((hjoined.more rfl).2 c hc).imp_left fun hextra => ?_
      exact (hjoined.extras c hc hextra).comment (hfaultless.child hc)

theorem Composed.barren_block (h : t.Composed src) (hsound : t.Sound src) (hfaultless : t.Faultless)
    (hlabel : t.label = .phrase .importSpecList) : t.Barren := by
  have hjoined := h.joined hlabel
  obtain ⟨opening, inner, closing, hchildren, hopening, hclosing, hspecs⟩ := hjoined.block rfl
  refine barren_of_children (by simp [hlabel]) fun c hc => ?_
  have hsoundChild := hsound.children c hc
  have hc' := hc
  rw [hchildren, List.mem_cons, List.mem_append, List.mem_singleton] at hc'
  rcases hc' with rfl | hinner | rfl
  · exact hsoundChild.barren_token hopening
  · refine (h.children c hc).barren hsoundChild (hfaultless.child hc) ?_
    refine (hspecs c hinner).imp_left fun hextra => ?_
    exact (hjoined.extras c hc hextra).comment (hfaultless.child hc)
  · exact hsoundChild.barren_token hclosing

theorem Composed.barren_child {c : Tree} (h : t.Composed src) (hsound : t.Sound src)
    (hfaultless : t.Faultless) (hlabel : t.label = .phrase .importDeclaration) (hc : c ∈ t.children) :
    c.Barren := by
  have hjoined := h.joined hlabel
  obtain ⟨word, inner, spec, hchildren, hword, -, hinner, hspec⟩ := hjoined.declaration rfl
  have hsoundChild := hsound.children c hc
  have hc' := hc
  rw [hchildren, List.mem_cons, List.mem_append, List.mem_singleton] at hc'
  rcases hc' with rfl | hmem | rfl
  · exact hsoundChild.barren_token hword
  · exact hsoundChild.barren_token
      ((hjoined.extras c hc (hinner c hmem)).comment (hfaultless.child hc))
  · simp only [List.mem_cons, List.not_mem_nil, or_false] at hspec
    rcases hspec with hl | hl
    · exact hsoundChild.barren_spec hl
    · exact (h.children _ hc).barren_block hsoundChild (hfaultless.child hc) hl

theorem SpecOf.inside (h : s.SpecOf r) (ht : t.Sound src) (hcomposed : t.Composed src)
    (hs : Inside s t) (hd : Inside d t) (hlabel : d.label = .phrase .importDeclaration)
    (hwithin : r.Within (d.start.offset, d.stop.offset)) : Inside s d := by
  obtain ⟨path, hpath, hstring, hstop⟩ := h.path
  obtain ⟨hlow, hhigh⟩ := hwithin
  rw [h.start] at hlow
  rw [hstop] at hhigh
  have hsound := (hs.bounds ht).1
  have hmem := List.mem_of_getLast? hpath
  obtain ⟨x, hquote, hbyte, hlt, -⟩ := (hsound.children path hmem).encloses hstring
  obtain ⟨hle, hle'⟩ := hsound.between.bounds path hmem
  rcases ht.nested_or_apart hs hd with hinside | hinside | hapart | hapart
  · exact hinside
  · cases hinside with
    | refl =>
      rw [h.label] at hlabel
      cases hlabel
    | @child k _ hinside hk =>
      have hbounds := hinside.bounds (hsound.children k hk)
      rcases hsound.between.eq_or_apart hk hmem with rfl | hside | hside
      · obtain ⟨-, -, -, -, -, hletter⟩ := (hd.composed hcomposed).word hlabel
        rw [show d.start.offset = k.start.offset by omega, hbyte, Option.some.injEq] at hletter
        subst hletter
        rcases hquote with heq | heq <;> exact absurd heq (by decide)
      · omega
      · omega
  · omega
  · omega

/-- A record stands before the word of a declaration with a spec, or behind it. -/
theorem SpecOf.cut {s' : Tree} (h : s'.SpecOf r) (ht : t.Sound src) (hcomposed : t.Composed src)
    (hs' : Inside s' t) (hd : Inside d t) (hlabel : d.label = .phrase .importDeclaration)
    (hs : Inside s d) (hspec : s.label = .phrase .importSpec) :
    r.stop ≤ d.start.offset ∨ (d.start.offset : Int) + 6 ≤ r.start := by
  obtain ⟨path, hpath, -, hstop⟩ := h.path
  have hsound := (hs'.bounds ht).1
  obtain ⟨-, hle⟩ := hsound.between.bounds path (List.mem_of_getLast? hpath)
  have hdecl := hd.composed hcomposed
  have hdeclSound := (hd.bounds ht).1
  rw [h.start, hstop]
  rcases ht.nested_or_apart hs' hd with hinside | hinside | hapart | hapart
  · have := hdecl.behind_start hdeclSound hlabel hinside h.label
    exact .inr (by omega)
  · exact absurd hspec (hsound.barren_spec h.label d hinside hlabel s hs)
  · exact .inl (by omega)
  · have := hdecl.behind_start hdeclSound hlabel hs hspec
    have := (hs.bounds hdeclSound).2.2
    have := (hs.bounds hdeclSound).1.le
    exact .inr (by omega)

end Tree

def Event.declaration? (limit : Nat) : Event → Option (Nat × Nat)
  | .importDeclaration start stop =>
    if start.offset < limit then some (start.offset, stop.offset) else none
  | _ => none

def headerDeclarations (limit : Nat) (events : List Event) : List (Nat × Nat) :=
  events.filterMap (Event.declaration? limit)

theorem le_foldl_max {n m : Nat} {ns : List Nat} (h : n ≤ m ∨ n ∈ ns) : n ≤ ns.foldl max m := by
  induction ns generalizing m with
  | nil => simpa using h
  | cons k ns ih =>
    refine ih ?_
    rcases h with h | h
    · exact .inl (by omega)
    · rcases List.mem_cons.mp h with rfl | h
      · exact .inl (by omega)
      · exact .inr h

theorem stop_le_headerEnd {limit : Nat} {events : List Event} {start stop : Spot}
    (h : .importDeclaration start stop ∈ events) (hlt : start.offset < limit) :
    stop.offset ≤ headerEnd limit events :=
  le_foldl_max (.inr (List.mem_filterMap.mpr ⟨_, h, if_pos hlt⟩))

namespace Tree

variable {src : Bytes} {t d : Tree} {limit : Nat}

theorem headerDeclarations_events (h : t.Counted) (limit : Nat) :
    headerDeclarations limit t.events = headerDeclarations limit t.outline := by
  have hnone : headerDeclarations limit ((t.children.flatMap Tree.others).map Event.otherItem) = [] := by
    rw [headerDeclarations, List.filterMap_map, List.filterMap_eq_nil_iff]
    exact fun _ _ => rfl
  rw [h.events, headerDeclarations, List.filterMap_append]
  exact congrArg (· ++ _) hnone

structure DeclarationOf (limit : Nat) (x : Nat × Nat) (d : Tree) : Prop where
  label : d.label = .phrase .importDeclaration
  start : d.start.offset < limit
  ends : x = (d.start.offset, d.stop.offset)

theorem declarationOf_of_event {e : Event} {x : Nat × Nat} (h : d.event? = some e)
    (hx : e.declaration? limit = some x) : d.DeclarationOf limit x := by
  unfold Event.declaration? at hx
  split at hx
  · split_ifs at hx with hlt
    cases hx
    unfold event? at h
    split_ifs at h
    · cases h
    · split at h
      · cases h
      · rename_i hlabel
        cases h
        exact ⟨hlabel, hlt, rfl⟩
      · obtain ⟨path, -, hpath⟩ := Option.map_eq_some_iff.mp h
        cases hpath
      · cases h
  · cases hx

theorem exists_declarationOf {x : Nat × Nat} (h : x ∈ headerDeclarations limit t.outline) :
    ∃ d, Inside d t ∧ d.DeclarationOf limit x := by
  obtain ⟨e, he, hx⟩ := List.mem_filterMap.mp h
  obtain ⟨d, hd, hevent⟩ := mem_outline_iff.mp he
  exact ⟨d, hd, declarationOf_of_event hevent hx⟩

end Tree

section Accepted

variable {src : Bytes} {t d : Tree} {rs : List Record} {x : Nat × Nat}

theorem Tree.DeclarationOf.faultless (hd : d.DeclarationOf (headerLimit src.length t.events) x)
    (ht : t.Sound src) (hcomposed : t.Composed src) (hinside : Inside d t)
    (h : importsOfEvents src.length t.events = .ok rs) : d.Faultless := by
  intro spot isOpen hspot
  have hsub : t.outline ⊆ t.events := by
    rw [ht.counted.events]
    exact List.subset_append_right _ _
  have hevent := Tree.mem_outline_of_event (((hinside.composed hcomposed).joined hd.label).event hd.label)
  have hstop := stop_le_headerEnd (hsub (hinside.outline_subset hevent)) hd.start
  have hbehind := (headerRecords_of_ok h).2 spot isOpen (hsub (hinside.outline_subset hspot))
  have hle : spot.offset ≤ d.stop.offset := ((hinside.bounds ht).1.fault_le hspot).2
  have hstop : d.stop.offset ≤ _ := hstop
  omega

theorem Tree.Composed.declarations_pairwise (hcomposed : t.Composed src) (ht : t.Sound src)
    (h : importsOfEvents src.length t.events = .ok rs) :
    ((headerDeclarations (headerLimit src.length t.events) t.outline).filter fun x =>
      rs.any (·.Within x)).Pairwise fun x x' => x.2 ≤ x'.1 := by
  obtain ⟨rfl, -⟩ := headerRecords_of_ok h
  rw [headerRecords_events ht.counted] at h ⊢
  refine List.pairwise_filter.mpr (List.pairwise_filterMap.mpr ?_)
  refine ht.pairwise_outline.imp fun {e e'} hprecedes x hx x' hx' _ hheld => ?_
  obtain ⟨d, d', hd, hevent, hd', hevent', hplace⟩ := hprecedes
  have hof := declarationOf_of_event hevent hx
  have hof' := declarationOf_of_event hevent' hx'
  rw [hof.ends, hof'.ends]
  refine hplace.resolve_right ?_
  rintro ⟨k, hk, hnested⟩
  -- The inner declaration would hold a spec, but the outer one shows no fault.
  obtain ⟨r, hr, hwithin⟩ := List.any_eq_true.mp hheld
  obtain ⟨s, hs, hspec⟩ := ht.exists_specOf hr
  have hin := hspec.inside ht hcomposed hs hd' hof'.label (by simpa [hof'.ends] using hwithin)
  have hfaultless := hof.faultless ht hcomposed hd h
  exact (hd.composed hcomposed).barren_child (hd.bounds ht).1 hfaultless hof.label hk d' hnested
    hof'.label s hin hspec.label

theorem Tree.Composed.length_le_groups (hcomposed : t.Composed src) (ht : t.Sound src)
    (h : importsOfEvents src.length t.events = .ok rs) :
    ((headerDeclarations (headerLimit src.length t.events) t.outline).filter fun x =>
      rs.any (·.Within x)).length ≤ (groups rs).length := by
  have hpairs := hcomposed.declarations_pairwise ht h
  obtain ⟨hrs, -⟩ := headerRecords_of_ok h
  rw [headerRecords_events ht.counted] at hrs
  have horder := ht.inOrder (headerLimit src.length t.events)
  rw [← hrs] at horder
  have hheld : ∀ x ∈ (headerDeclarations (headerLimit src.length t.events) t.outline).filter fun x =>
      rs.any (·.Within x), ∃ r ∈ rs, r.Within x := by
    intro x hx
    obtain ⟨r, hr, hwithin⟩ := List.any_eq_true.mp (List.mem_filter.mp hx).2
    exact ⟨r, hr, of_decide_eq_true hwithin⟩
  refine ImportGroups.length_le_groups (fun r hr => (horder.located r hr).bounds.2.1) horder.apart hpairs
    hheld fun x hx r hr => ?_
  obtain ⟨r', hr', hwithin⟩ := hheld x hx
  obtain ⟨d, hd, hof⟩ := exists_declarationOf (List.mem_filter.mp hx).1
  obtain ⟨s, hs, hspec⟩ := ht.exists_specOf (hrs ▸ hr)
  obtain ⟨s', hs', hspec'⟩ := ht.exists_specOf (hrs ▸ hr')
  rw [hof.ends] at hwithin ⊢
  have hin := hspec'.inside ht hcomposed hs' hd hof.label hwithin
  exact hspec.cut ht hcomposed hs hd hof.label hin hspec'.label

/-- Two neighbouring specs of one declaration, with nothing but white space and ends of specs between
them. -/
structure Linked (src : Bytes) (ds : List (Nat × Nat)) (r r' : Record) : Prop where
  declaration : ∃ d ∈ ds, r.Within d ∧ r'.Within d
  gap : r.stop ≤ r'.start ∧ r'.start ≤ r.stop + 2
  bytes : AllBytes IsGapByte src r.stop.toNat r'.start.toNat

/-- Neighbouring records of a group come from one declaration, or an error behind the header stands
before the second one. -/
theorem Tree.Composed.linked (hcomposed : t.Composed src) (ht : t.Sound src)
    (hroot : t.label = .phrase .sourceFile ∨ t.label = .error)
    (h : importsOfEvents src.length t.events = .ok rs) {r r' : Record} (hrecords : [r, r'] <:+: rs)
    (hadjacent : Adjacent r r') :
    Linked src (headerDeclarations (headerLimit src.length t.events) t.events) r r' ∨
      ∃ spot, .fault spot false ∈ t.events ∧
        headerEnd (headerLimit src.length t.events) t.events < spot.offset ∧ spot.offset ≤ r'.start := by
  obtain ⟨rfl, hfaults⟩ := headerRecords_of_ok h
  rw [headerRecords_events ht.counted] at hrecords
  have hsub : t.outline ⊆ t.events := by
    rw [ht.counted.events]
    exact List.subset_append_right _ _
  have hloose : ¬ t.IsLoose := by
    rintro (hskipped | ⟨p, hp, hl⟩)
    · rcases hroot with hl | hl <;> rw [hskipped] at hl <;> cases hl
    · rcases hroot with hl' | hl' <;> rw [hl] at hl' <;> cases hl'
      exact absurd hp (by decide)
  have hparted := rel_of_isChain (hcomposed.isChain ht hloose fun c hc hl hlt =>
    ht.stop_le_limit hroot hc hl hlt) hrecords
  have hadjacent : r'.start - r.stop ≤ 2 := hadjacent
  have horder := ht.inOrder (headerLimit src.length t.events)
  have hmem := hrecords.subset
  have hmem' : r' ∈ t.records (headerLimit src.length t.events) := hmem (by simp)
  have hpair := List.rel_of_pairwise_cons (horder.apart.sublist hrecords.sublist) (List.mem_singleton_self r')
  have hbounds' := (horder.located r' hmem').bounds
  have hlt' := start_lt_of_mem_records hmem'
  cases hparted with
  | apart hwide => omega
  | @linked start stop hdecl hstart hstop hspaced =>
    have hbounds := (horder.located r (hmem (by simp))).bounds
    have hspaced : AllBytes IsGapByte src r.stop.toNat r'.start.toNat := hspaced.resolve_left (by omega)
    have hlt : start.offset < headerLimit src.length t.events := by omega
    refine .inl ⟨⟨(start.offset, stop.offset), ?_, ?_, ?_⟩, by omega, hspaced⟩
    · exact List.mem_filterMap.mpr ⟨_, hsub hdecl, if_pos hlt⟩
    · exact ⟨hstart, by dsimp only; omega⟩
    · exact ⟨by dsimp only; omega, hstop⟩
  | faulty hdecl hlt hspot hle =>
    have := stop_le_headerEnd (hsub hdecl) hlt
    have := hfaults _ _ (hsub hspot)
    omega
  | @behind spot isOpen hspot hle =>
    obtain rfl := closed_of_ok h (hsub hspot) (by omega)
    exact .inr ⟨spot, hsub hspot, hfaults _ _ (hsub hspot), hle⟩

end Accepted

end Source

/-- Neighbouring records of a group belong to one declaration of the header, and only white space and
ends of specs lie between them, two bytes at most. Otherwise an error behind the header stands before
the second one. There are at least as many groups as declarations with a spec, so more than three of
these are too many. -/
theorem groups_within_declarations {src : Bytes} {rs : List Record} (h : sourceImports src = .ok rs) :
    let events := (readSource src).events
    let limit := headerLimit src.length events
    let ds := headerDeclarations limit events
    let count := (ds.filter fun d => rs.any (·.Within d)).length
    (∀ g ∈ groups rs, ∀ r r', [r, r'] <:+: g → Linked src ds r r' ∨
      ∃ spot, .fault spot false ∈ events ∧ headerEnd limit events < spot.offset ∧
        spot.offset ≤ r'.start) ∧
    count ≤ (groups rs).length ∧
    (3 < count → ∀ root, analyze root rs = some (.tooManyGroups (groups rs).length)) := by
  obtain ⟨hcomposed, hroot⟩ := readTree_composed src
  have ht := readTree_sound src
  have h : importsOfEvents src.length (readTree src).events = .ok rs := h
  have hcount := hcomposed.length_le_groups ht h
  rw [← Tree.headerDeclarations_events ht.counted] at hcount
  refine ⟨fun g hg r r' hpair => ?_, hcount, fun hmany root => ?_⟩
  · have hadjacent := rel_of_isChain ((groups_gapPartition rs).tight g hg) hpair
    refine hcomposed.linked ht hroot h (hpair.trans ?_) hadjacent
    rw [← groups_flatten rs]
    exact List.infix_of_mem_flatten hg
  · exact validate_of_many (Nat.lt_of_lt_of_le hmany hcount)

/-- The first of four declarations has two specs on neighbouring lines. -/
def fourDeclarations : Bytes :=
  Text.encodeUtf8 "package p\nimport(`a`\n`b`)\nimport`c`\nimport`d`\nimport`e`\n"

def fourDeclarationsEvents : List Event :=
  [.packageClause ⟨0, 0⟩ ⟨9, 0⟩,
    .importDeclaration ⟨10, 1⟩ ⟨25, 2⟩,
    .importSpec ⟨17, 1⟩ ⟨17, 1⟩ ⟨20, 1⟩ (Text.encodeUtf8 "`a`"),
    .importSpec ⟨21, 2⟩ ⟨21, 2⟩ ⟨24, 2⟩ (Text.encodeUtf8 "`b`"),
    .importDeclaration ⟨26, 3⟩ ⟨35, 3⟩,
    .importSpec ⟨32, 3⟩ ⟨32, 3⟩ ⟨35, 3⟩ (Text.encodeUtf8 "`c`"),
    .importDeclaration ⟨36, 4⟩ ⟨45, 4⟩,
    .importSpec ⟨42, 4⟩ ⟨42, 4⟩ ⟨45, 4⟩ (Text.encodeUtf8 "`d`"),
    .importDeclaration ⟨46, 5⟩ ⟨55, 5⟩,
    .importSpec ⟨52, 5⟩ ⟨52, 5⟩ ⟨55, 5⟩ (Text.encodeUtf8 "`e`")]

def fiveRecords : List Record :=
  [⟨"a", 17, 20⟩, ⟨"b", 21, 24⟩, ⟨"c", 32, 35⟩, ⟨"d", 42, 45⟩, ⟨"e", 52, 55⟩]

theorem groups_within_fourDeclarations :
    sourceImports fourDeclarations = .ok fiveRecords ∧
      Linked fourDeclarations [(10, 25), (26, 35), (36, 45), (46, 55)] ⟨"a", 17, 20⟩ ⟨"b", 21, 24⟩ ∧
      ∀ root, analyze root fiveRecords = some (.tooManyGroups 4) := by
  have hevents : (readSource fourDeclarations).events = fourDeclarationsEvents := by decide +kernel
  have hread : sourceImports fourDeclarations = .ok fiveRecords := by
    rw [sourceImports, hevents]
    decide +kernel
  have hdecls : headerDeclarations (headerLimit fourDeclarations.length fourDeclarationsEvents)
      fourDeclarationsEvents = [(10, 25), (26, 35), (36, 45), (46, 55)] := by decide +kernel
  have hgroups : groups fiveRecords =
      [[⟨"a", 17, 20⟩, ⟨"b", 21, 24⟩], [⟨"c", 32, 35⟩], [⟨"d", 42, 45⟩], [⟨"e", 52, 55⟩]] := by
    decide +kernel
  obtain ⟨hlinked, -, hmany⟩ := groups_within_declarations hread
  rw [hevents, hdecls, hgroups] at hlinked hmany
  refine ⟨hread, ?_, hmany (by decide +kernel)⟩
  refine (hlinked _ List.mem_cons_self _ _ List.infix_rfl).resolve_right ?_
  rintro ⟨spot, hspot, -⟩
  simp [fourDeclarationsEvents] at hspot

/-- A byte that fits nowhere stands before the block, so it is not known as an open import. -/
def strayBlock : Bytes := Text.encodeUtf8 "package p\n,import(\"a\"(`b`\n"

/-- There are groups whose records no declaration holds, and with other text inside than white space. -/
theorem group_without_declaration :
    ∃ r r' : Record, sourceImports strayBlock = .ok [r, r'] ∧ groups [r, r'] = [[r, r']] ∧
      headerDeclarations (headerLimit strayBlock.length (readSource strayBlock).events)
        (readSource strayBlock).events = [] ∧
      ¬ AllBytes IsGapByte strayBlock r.stop.toNat r'.start.toNat := by
  have hevents : (readSource strayBlock).events =
      [.packageClause ⟨0, 0⟩ ⟨9, 0⟩, .fault ⟨10, 1⟩ false, .fault ⟨17, 1⟩ false,
        .importSpec ⟨18, 1⟩ ⟨18, 1⟩ ⟨21, 1⟩ (Text.encodeUtf8 "\"a\""),
        .importSpec ⟨22, 1⟩ ⟨22, 1⟩ ⟨25, 1⟩ (Text.encodeUtf8 "`b`")] := by decide +kernel
  rw [sourceImports, hevents]
  refine ⟨⟨"a", 18, 21⟩, ⟨"b", 22, 25⟩, by decide +kernel, by decide +kernel, by decide, ?_⟩
  intro hbytes
  have hparen : strayBlock[21]? = some 0x28 := by decide +kernel
  rcases hbytes 21 (by decide) (by decide) _ hparen with h | h <;> exact absurd h (by decide)

end ImportGroups
