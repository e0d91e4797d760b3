import ImportGroups.Proofs.Soundness.Depths
import ImportGroups.Proofs.Soundness.Rounds

/-!
How import declarations are put together.

A declaration starts with the word `import`, and the specs of a block stand between its parentheses,
with the ends of specs between them. Between two such parts there are only blanks, and comments or
errors, which may stand anywhere. A part of a declaration is a part of nothing else, unless it was
left out. All of this is a law of the reading.
-/

namespace ImportGroups.Source

open Text (Bytes)
open Automaton (lost rulesBefore Zone after after_into specPhrases specZones)

namespace Automaton

def importPhrases : List Phrase := [.importDeclaration, .importSpecList, .moreImportSpecs]

def blockLabels : List Label :=
  Symbol.separators.map .token ++ [.phrase .importSpec, .phrase .moreImportSpecs]

namespace Zone

/-- The zones of import declarations and of what comes before them. -/
def framed : List Zone :=
  outer ++ [laterSpec, emptyEnd, singleEnd, blockEnd, endedEnd, declared, dot, name, path, namedPath]

/-- The labels of the last parts before a zone, in the order of the source. -/
def readings : Nat → Zone → List (List Label)
  | 0, _ => [[]]
  | n + 1, z => (z.sources?.getD []).flatMap fun y =>
    (readings n y).flatMap fun ls => z.labels.map fun l => ls ++ [l]

theorem framed_sources {z : Zone} (hz : z ∈ framed) : ∃ ys, z.sources? = some ys ∧ ys ⊆ framed := by
  have hall : ∀ z ∈ framed, ∃ ys ∈ z.sources?, ys ⊆ framed := by decide
  exact hall z hz

end Zone

def partsFit : Phrase → List Label → Bool
  | .importDeclaration, [word, spec] =>
    word == .token .importWord && [Label.phrase .importSpec, .phrase .importSpecList].contains spec
  | .importSpecList, opening :: ls =>
    opening == .token .leftParen && ls.getLast? == some (.token .rightParen) &&
      ls.dropLast.all blockLabels.contains
  | .moreImportSpecs, ls => !ls.isEmpty && ls.all blockLabels.contains
  | _, _ => false

theorem partsFit_of_readings : ∀ x ∈ Zone.importRules, ∀ z ∈ x.2.2, z ∈ Zone.framed ∧
    ∀ ls ∈ z.readings x.2.1.parts, partsFit x.2.1.phrase ls = true := by
  decide

def leadLabels : Phrase → List Label
  | .importSpec =>
    [.token .identifier, .token .underscore, .phrase .dotName, .phrase .string, .phrase .rawString]
  | .dotName => [.token .dot]
  | _ => []

theorem leads_of_readings : ∀ x ∈ Zone.formingRules, x.2.1.phrase ∈ [Phrase.importSpec, .dotName] →
    x.2.2 ∈ Zone.framed ∧ ∀ ls ∈ x.2.2.readings x.2.1.parts,
      ∃ l ∈ ls.head?, l ∈ leadLabels x.2.1.phrase := by
  decide

end Automaton

open Automaton (importPhrases blockLabels leadLabels)

def partLabels (ts : List Tree) : List Label := (ts.filter fun t => !t.extra).map (·.label)

theorem partLabels_append (ts us : List Tree) :
    partLabels (ts ++ us) = partLabels ts ++ partLabels us := by
  simp [partLabels]

theorem partLabels_cons {t : Tree} (h : t.extra = false) (ts : List Tree) :
    partLabels (t :: ts) = t.label :: partLabels ts := by
  simp [partLabels, h]

theorem partLabels_eq_nil {ts : List Tree} : partLabels ts = [] ↔ ∀ t ∈ ts, t.extra = true := by
  simp [partLabels]

theorem mem_partLabels {t : Tree} {ts : List Tree} (ht : t ∈ ts) (h : t.extra = false) :
    t.label ∈ partLabels ts :=
  List.mem_map_of_mem (List.mem_filter.mpr ⟨ht, by simp [h]⟩)

namespace Way

variable {L : Law} {b s : Stand} {ts : List Tree} {n : Nat} {z : Zone}

theorem partLabels_mem (h : Way L b ts n s) (hz : z ∈ Zone.framed) (hs : s.state ∈ z.states) :
    partLabels ts ∈ z.readings n := by
  induction n generalizing ts s z with
  | zero =>
    rw [partLabels_eq_nil.mpr h.extra_of_zero]
    exact List.mem_singleton_self _
  | succ n ih =>
    have hlost : s.state ≠ lost := fun h => Automaton.lost_not_mem z (h ▸ hs)
    obtain ⟨us, t, es, m, m', rfl, hus, -, hpart, hes⟩ := h.lastPart hlost
    rw [hes.state_of_zero, hpart.state] at hs
    obtain ⟨ys, hys, hframed⟩ := Zone.framed_sources hz
    obtain ⟨hlabel, hsources⟩ := after_into hs
    obtain ⟨y, hy, hm⟩ := hsources ys hys
    have hlabels : partLabels (us ++ t :: es) = partLabels us ++ [t.label] := by
      rw [partLabels_append, partLabels_cons hpart.extra, partLabels_eq_nil.mpr hes.extra_of_zero]
    rw [hlabels, Zone.readings, hys, Option.getD_some]
    simp only [List.mem_flatMap, List.mem_map]
    exact ⟨y, hy, _, ih hus (hframed hy) hm, t.label, hlabel, rfl⟩

theorem partsFit {r : Rule} {u : Symbol} (h : Way L b ts r.parts s)
    (hr : r ∈ rulesBefore s.state u) (hphrase : r.phrase ∈ importPhrases) :
    Automaton.partsFit r.phrase (partLabels ts) = true := by
  obtain ⟨x, hx, rfl, z, hz, hs⟩ := Automaton.importing_zone hr hphrase
  obtain ⟨hframed, hfit⟩ := Automaton.partsFit_of_readings x hx z hz
  exact hfit _ (h.partLabels_mem hframed hs)

theorem leads {r : Rule} {u : Symbol} (h : Way L b ts r.parts s) (hr : r ∈ rulesBefore s.state u)
    (hfirst : ∀ t ∈ ts.head?, t.extra = false) (hphrase : r.phrase ∈ [Phrase.importSpec, .dotName]) :
    ∃ c ∈ ts.head?, c.label ∈ leadLabels r.phrase := by
  obtain ⟨x, hx, rfl, hs⟩ := Automaton.forming_zone hr (by
    simp only [List.mem_cons, List.not_mem_nil, or_false] at hphrase ⊢
    exact hphrase.imp_right .inl)
  obtain ⟨hframed, hleads⟩ := Automaton.leads_of_readings x hx hphrase
  obtain ⟨l, hl, hmem⟩ := hleads _ (h.partLabels_mem hframed hs)
  cases ts with
  | nil => cases hl
  | cons c ts =>
    rw [partLabels_cons (hfirst c rfl)] at hl
    cases hl
    exact ⟨c, rfl, hmem⟩

theorem phrase_of_spec {r : Rule} {u : Symbol} {c : Tree} {p : Phrase} (h : Way L b ts r.parts s)
    (hr : r ∈ rulesBefore s.state u) (hc : c ∈ ts) (hextra : c.extra = false) (hp : p ∈ specPhrases)
    (hlabel : c.label = .phrase p) : r.phrase ∈ importPhrases := by
  have hlost : s.state ≠ lost := by
    intro hs
    rw [hs, Automaton.rulesBefore_lost] at hr
    cases hr
  obtain ⟨us, vs, rfl⟩ := List.append_of_mem hc
  obtain ⟨m, i, j, -, hrest, hn⟩ := h.of_append
  cases hrest with
  | extra _ htrue => simp [hextra] at htrue
  | gap hrest => exact absurd (hrest.of_lost rfl) hlost
  | @part _ m' _ _ _ k _ hpart hvs =>
    -- the rule reaches below the part, and only few rules do
    have hafter : m'.state = Automaton.afterPhrase m.state p := by rw [hpart.state, hlabel, after]
    have hdepth : ∀ z ∈ specZones, ∀ q ∈ z.states,
        Automaton.listedDepth Automaton.specDepths q = 0 := by decide
    obtain ⟨z, hz, hm'⟩ := (Automaton.afterPhrase_spec m.state hp).resolve_left fun hm' =>
      hlost (hvs.of_lost (hafter.trans hm'))
    have hmem := hvs.rule_mem Automaton.depths_spec (hdepth z hz _ (hafter ▸ hm')) hr (by omega)
    have hall : ∀ x ∈ Automaton.specRules, x.2.phrase ∈ importPhrases := by decide
    exact hall _ hmem

theorem word_read {word : Tree} (h : Way L b (word :: ts) 2 s) (hs : s.state ∈ Zone.declared.states)
    (hextra : word.extra = false) : word.missing = false := by
  have hlost : s.state ≠ lost := fun h => Automaton.lost_not_mem .declared (h ▸ hs)
  obtain ⟨m, -, hpart, hrest⟩ := h.firstPart hlost hextra
  have hm := hrest.state_mem_of_one hs rfl
  rw [Bool.eq_false_iff]
  intro hmissing
  obtain ⟨u, hu⟩ := hpart.missing hmissing
  obtain ⟨r, hr⟩ := List.exists_mem_of_ne_nil _ hu
  obtain ⟨x, hx, -⟩ := Automaton.rule_of_zone hr hm rfl
  exact List.not_mem_nil hx

end Way

namespace Tree

/-- Only blanks lie before each of the trees, from the offset on. -/
def Adjoin (src : Bytes) : Nat → List Tree → Prop
  | _, [] => True
  | a, t :: ts => Clear src a t.start.offset ∧ Adjoin src t.stop.offset ts

def IsDeclaration (t : Tree) : Prop :=
  ∃ word inner spec, t.children = word :: (inner ++ [spec]) ∧ word.label = .token .importWord ∧
    word.missing = false ∧ (∀ c ∈ inner, c.extra = true) ∧
    spec.label ∈ [Label.phrase .importSpec, .phrase .importSpecList]

def AreSpecs (ts : List Tree) : Prop := ∀ c ∈ ts, c.extra = true ∨ c.label ∈ blockLabels

def IsBlock (t : Tree) : Prop :=
  ∃ opening inner closing, t.children = opening :: (inner ++ [closing]) ∧
    opening.label = .token .leftParen ∧ closing.label = .token .rightParen ∧ AreSpecs inner

/-- What may stand anywhere: a comment, or text that is left out. -/
def IsExtra (t : Tree) : Prop := t.label = .error ∨ t.label = .token .comment

/-- How the parts of a phrase fit together. -/
structure Joined (src : Bytes) (p : Phrase) (t : Tree) : Prop where
  read : t.missing = false
  first : ∀ c ∈ t.children.head?, t.start = c.start
  last : ∀ c ∈ t.children.getLast?, t.stop = c.stop
  extras : ∀ c ∈ t.children, c.extra = true → c.IsExtra
  taken : ∀ c ∈ t.children, c.label ≠ .skipped
  others : p ∉ importPhrases → ∀ c ∈ t.children, ∀ q ∈ specPhrases, c.label ≠ .phrase q
  adjoin : p ∈ importPhrases → Adjoin src t.start.offset t.children
  declaration : p = .importDeclaration → t.IsDeclaration
  block : p = .importSpecList → t.IsBlock
  more : p = .moreImportSpecs → t.children ≠ [] ∧ AreSpecs t.children
  leads : p ∈ [Phrase.importSpec, .dotName] → ∃ c ∈ t.children.head?, c.label ∈ leadLabels p

def Fits (src : Bytes) (t : Tree) : Prop :=
  match t.label with
  | .token s => t.missing = true ∧ t.stop = t.start ∨
      t.missing = false ∧ s.Spelled src t.start.offset t.stop.offset
  | .phrase p => t.Joined src p
  | .error | .skipped => ∀ c ∈ t.children.head?, t.start = c.start

/-- The tree and all trees in it are put together as the grammar of imports says. -/
inductive Composed (src : Bytes) : Tree → Prop where
  | intro {t : Tree} : t.Fits src → (∀ c ∈ t.children, Composed src c) → Composed src t

variable {src : Bytes} {t : Tree}

theorem start_node {label : Label} {ts : List Tree} {here : Mark} :
    ∀ c ∈ ts.head?, (node label ts here).start = c.start := by
  intro c hc
  simp [node, Option.mem_def.mp hc]

theorem stop_node {label : Label} {ts : List Tree} {here : Mark} :
    ∀ c ∈ ts.getLast?, (node label ts here).stop = c.stop := by
  intro c hc
  simp [node, Option.mem_def.mp hc]

theorem Composed.fits (h : t.Composed src) : t.Fits src := by cases h; assumption

theorem Composed.children (h : t.Composed src) : ∀ c ∈ t.children, c.Composed src := by
  cases h; assumption

theorem Composed.joined {p : Phrase} (h : t.Composed src) (hp : t.label = .phrase p) :
    t.Joined src p := by
  have hfits := h.fits
  simpa only [Fits, hp] using hfits

theorem Composed.congr {t' : Tree} (h : t.Composed src) (ha : t.Alike t') : t'.Composed src := by
  refine .intro ?_ (ha.children ▸ h.children)
  have hfits := h.fits
  unfold Fits at hfits ⊢
  rw [ha.label]
  split at hfits
  · rwa [ha.missing, ha.start, ha.stop]
  · obtain ⟨h₀, h₁, h₂, h₃, h₄, h₅, h₆, h₇, h₈, h₉, h₁₀⟩ := hfits
    refine ⟨?_, ?_, ?_, ?_, ?_, ?_, ?_, ?_, ?_, ?_, ?_⟩
    all_goals simpa only [IsDeclaration, IsBlock, ha.children, ha.start, ha.stop, ha.missing]
  · rwa [ha.children, ha.start]
  · rwa [ha.children, ha.start]

end Tree

/-- What is asked of a tree that was read behind an offset. -/
structure Keeping (src : Bytes) (b : Stand) (t : Tree) : Prop where
  clear : Clear src b.offset t.start.offset
  extra : t.extra = true → t.IsExtra
  composed : t.Composed src

/-- The trees are put together as the grammar of imports says. -/
def Law.composed (src : Bytes) : Law where
  src := src
  front := 0
  keeps := Keeping src
  best t? := ∀ t ∈ t?, t.Composed src ∧ (t.label = .phrase .sourceFile ∨ t.label = .error)

namespace Way

variable {src : Bytes} {b s : Stand} {ts : List Tree} {n : Nat}

theorem adjoin (h : Way (.composed src) b ts n s) : Tree.Adjoin src b.offset ts := by
  induction h with
  | nil => trivial
  | extra hrung _ _ _ ih => exact ⟨hrung.keeps.clear, hrung.stop ▸ ih⟩
  | part hrung _ _ ih => exact ⟨hrung.keeps.clear, hrung.stop ▸ ih⟩
  | gap _ ih => exact ih

theorem composed (h : Way (.composed src) b ts n s) : ∀ t ∈ ts, t.Composed src := by
  intro t ht
  obtain ⟨_, hkeeps⟩ := h.keeps t ht
  exact hkeeps.composed

theorem isExtra (h : Way (.composed src) b ts n s) : ∀ t ∈ ts, t.extra = true → t.IsExtra := by
  intro t ht
  obtain ⟨_, hkeeps⟩ := h.keeps t ht
  exact hkeeps.extra

theorem ne_skipped (h : Way (.composed src) b ts n s) (hs : s.state ≠ lost) :
    ∀ t ∈ ts, t.label ≠ .skipped := by
  induction h with
  | nil => simp
  | extra hrung hextra _ _ ih =>
    refine List.forall_mem_cons.mpr ⟨fun hl => ?_, ih hs⟩
    rcases hrung.keeps.extra hextra with h | h
    all_goals
      rw [hl] at h
      cases h
  | part _ hpart h ih =>
    refine List.forall_mem_cons.mpr ⟨fun hl => ?_, ih hs⟩
    exact hs (h.of_lost (by rw [hpart.state, hl, after]))
  | gap h => exact absurd (h.of_lost rfl) hs

variable {r : Rule} {u : Symbol} {here : Mark}

theorem isDeclaration (h : Way (.composed src) b ts r.parts s) (hr : r ∈ rulesBefore s.state u)
    (hfirst : ∀ t ∈ ts.head?, t.extra = false) (hlast : ∀ t ∈ ts.getLast?, t.extra = false)
    (hphrase : r.phrase = .importDeclaration) (label : Label) :
    (Tree.node label ts here).IsDeclaration := by
  have hfit := h.partsFit hr (by simp [hphrase, importPhrases])
  obtain ⟨x, hx, rfl, z, hz, hs⟩ := Automaton.importing_zone hr (by simp [hphrase])
  have hrule : ∀ x ∈ Zone.importRules, x.2.1.phrase = .importDeclaration →
      x.2.1.parts = 2 ∧ x.2.2 = [.declared] := by decide
  obtain ⟨hparts, hzones⟩ := hrule x hx hphrase
  rw [hzones, List.mem_singleton] at hz
  subst hz
  rw [hparts] at h
  rw [hphrase] at hfit
  cases ts with
  | nil => simp [Automaton.partsFit, partLabels] at hfit
  | cons word rest =>
    have hword := hfirst word rfl
    rcases List.eq_nil_or_concat rest with rfl | ⟨inner, spec, rfl⟩
    · simp [Automaton.partsFit, partLabels, hword] at hfit
    · rw [List.concat_eq_append] at *
      have hspec := hlast spec (by rw [← List.cons_append, List.getLast?_concat]; rfl)
      rw [partLabels_cons hword, partLabels_append, partLabels_cons hspec] at hfit
      cases hinner : partLabels inner with
      | nil =>
        rw [hinner] at hfit
        simp only [Automaton.partsFit, partLabels, List.filter_nil, List.map_nil, List.nil_append,
          Bool.and_eq_true, beq_iff_eq, List.contains_iff_mem] at hfit
        exact ⟨word, inner, spec, rfl, hfit.1, h.word_read hs hword, partLabels_eq_nil.mp hinner, hfit.2⟩
      | cons l ls =>
        rw [hinner] at hfit
        simp [Automaton.partsFit] at hfit

theorem areSpecs_of_all (h : (partLabels ts).all blockLabels.contains = true) :
    Tree.AreSpecs ts := by
  intro c hc
  by_cases hextra : c.extra = true
  · exact .inl hextra
  · exact .inr (List.contains_iff_mem.mp
      (List.all_eq_true.mp h _ (mem_partLabels hc (by simpa using hextra))))

theorem isBlock (h : Way (.composed src) b ts r.parts s) (hr : r ∈ rulesBefore s.state u)
    (hfirst : ∀ t ∈ ts.head?, t.extra = false) (hlast : ∀ t ∈ ts.getLast?, t.extra = false)
    (hphrase : r.phrase = .importSpecList) (label : Label) : (Tree.node label ts here).IsBlock := by
  have hfit := h.partsFit hr (by simp [hphrase, importPhrases])
  rw [hphrase] at hfit
  cases ts with
  | nil => simp [Automaton.partsFit, partLabels] at hfit
  | cons opening rest =>
    have hopening := hfirst opening rfl
    rcases List.eq_nil_or_concat rest with rfl | ⟨inner, closing, rfl⟩
    · simp [Automaton.partsFit, partLabels, hopening] at hfit
    · rw [List.concat_eq_append] at *
      have hclosing := hlast closing (by rw [← List.cons_append, List.getLast?_concat]; rfl)
      have hnil : partLabels ([] : List Tree) = [] := rfl
      rw [partLabels_cons hopening, partLabels_append, partLabels_cons hclosing, hnil] at hfit
      simp only [Automaton.partsFit, Bool.and_eq_true, beq_iff_eq, List.getLast?_concat,
        List.dropLast_concat, Option.some.injEq] at hfit
      exact ⟨opening, inner, closing, rfl, hfit.1.1, hfit.1.2, areSpecs_of_all hfit.2⟩

theorem joined (h : Way (.composed src) b ts r.parts s) (hr : r ∈ rulesBefore s.state u)
    (hfirst : ∀ t ∈ ts.head?, t.extra = false) (hlast : ∀ t ∈ ts.getLast?, t.extra = false) :
    (Tree.node (.phrase r.phrase) ts here).Joined src r.phrase := by
  have hlost : s.state ≠ lost := by
    intro hs
    rw [hs, Automaton.rulesBefore_lost] at hr
    cases hr
  refine ⟨rfl, Tree.start_node, Tree.stop_node, h.isExtra, h.ne_skipped hlost, fun hp c hc q hq hl => ?_, fun _ => ?_,
    fun hp => h.isDeclaration hr hfirst hlast hp _, fun hp => h.isBlock hr hfirst hlast hp _,
    fun hp => ?_, h.leads hr hfirst⟩
  · cases hextra : c.extra with
    | false => exact hp (h.phrase_of_spec hr hc hextra hq hl)
    | true =>
      rcases h.isExtra c hc hextra with h | h
      all_goals
        rw [hl] at h
        cases h
  · have hadjoin := h.adjoin
    cases ts with
    | nil => trivial
    | cons t ts => exact ⟨fun i hle hlt => absurd hlt (by simp [Tree.node] at hle ⊢; omega), hadjoin.2⟩
  · have hfit := h.partsFit hr (by simp [hp, importPhrases])
    rw [hp, Automaton.partsFit, Bool.and_eq_true] at hfit
    refine ⟨fun hnil => ?_, areSpecs_of_all hfit.2⟩
    have hts : ts = [] := hnil
    simp [hts, partLabels] at hfit

end Way

theorem Tree.IsToken.fits {src : Bytes} {t : Tree} {a : Nat} (ht : t.IsToken src a) :
    t.Fits src := by
  unfold Fits
  rcases ht.label with hl | ⟨s, hl⟩
  · simp [hl, ht.children]
  · rw [hl]
    exact .inr ⟨ht.missing, ht.spelled s hl⟩

theorem Tree.IsToken.composed {src : Bytes} {t : Tree} {a : Nat} (ht : t.IsToken src a) :
    t.Composed src :=
  .intro ht.fits (by simp [ht.children])

/-- Trees that are left out become one tree, which asks nothing of them. -/
theorem Tree.composed_node {src : Bytes} {label : Label} {ts : List Tree} (here : Mark)
    (hlabel : label = .error ∨ label = .skipped) (hts : ∀ t ∈ ts, t.Composed src) :
    (Tree.node label ts here).Composed src := by
  refine .intro ?_ hts
  rcases hlabel with rfl | rfl <;> exact start_node

instance (src : Bytes) : (Law.composed src).Stable where
  token _ ht := ⟨ht.clear, by simp [ht.extra], ht.composed⟩
  passed _ ht hlabel :=
    ⟨ht.clear, fun _ => .inr hlabel, ht.composed.congr ⟨rfl, rfl, rfl, rfl, rfl, rfl⟩⟩
  putIn t here _ hhere := by
    refine ⟨fun i hle hlt => ?_, nofun, .intro (.inl ⟨rfl, rfl⟩) (by simp [Tree.missingToken])⟩
    have hlt : i < here.offset := hlt
    omega
  ranked _ h := ⟨h.clear, h.extra, h.composed.congr ⟨rfl, rfl, rfl, rfl, rfl, rfl⟩⟩
  moved h _ := ⟨h.clear, h.extra, h.composed⟩
  leftOut ts here h hts := by
    have hcomposed := Tree.composed_node here (.inl rfl) (List.forall_mem_cons.mpr
      ⟨h.composed, fun t ht => (hts t ht).elim fun _ hkeeps => hkeeps.composed⟩)
    exact ⟨h.clear, fun _ => .inl rfl, hcomposed.congr ⟨rfl, rfl, rfl, rfl, rfl, rfl⟩⟩
  leftAgain {_ _ _ t} ts here h hlabel hne hts := by
    have hchildren : ∀ c ∈ t.children ++ ts, c.Composed src := by
      intro c hc
      rcases List.mem_append.mp hc with hc | hc
      · exact h.composed.children c hc
      · exact (hts c hc).elim fun _ hkeeps => hkeeps.composed
    have hcomposed := Tree.composed_node here (.inl rfl) hchildren
    refine ⟨?_, fun _ => .inl rfl, hcomposed.congr ⟨rfl, rfl, rfl, rfl, rfl, rfl⟩⟩
    have hfits := h.composed.fits
    unfold Tree.Fits at hfits
    rw [hlabel] at hfits
    obtain ⟨c, cs, hc⟩ := List.exists_cons_of_ne_nil hne
    have hstart : t.start = c.start := hfits c (by rw [hc]; rfl)
    simpa [Tree.node, hc, ← hstart] using h.clear
  skipped ts here h hts := by
    have hcomposed := Tree.composed_node here (.inr rfl) (List.forall_mem_cons.mpr
      ⟨h.composed, fun t ht => (hts t ht).elim fun _ hkeeps => hkeeps.composed⟩)
    exact ⟨h.clear, nofun, hcomposed⟩
  formed {_ _ ts _ _} here h hr hfirst hlast hhere _ := by
    refine ⟨?_, nofun, .intro (h.joined hr hfirst hlast) h.composed⟩
    have hadjoin := h.adjoin
    cases ts with
    | nil =>
      intro i hle hlt
      have hlt : i < here.offset := hlt
      omega
    | cons t ts => exact hadjoin.1
  accepted {_ _ _ us es t token} hus ht hlabel _ hes _ htoken hend := by
    rintro _ ⟨⟩
    have hjoined := ht.keeps.composed.joined hlabel
    have hchildren : ∀ c ∈ us ++ t.children ++ (es ++ [token]), c.IsExtra ∨ c ∈ t.children ∨
        c.label = .token .endOfFile ∧ c = token := by
      intro c hc
      simp only [List.mem_append, List.mem_singleton] at hc
      rcases hc with (hc | hc) | hc | hc
      · exact .inl (hus.isExtra c hc (hus.extra_of_zero c hc))
      · exact .inr (.inl hc)
      · exact .inl (hes.isExtra c hc (hes.extra_of_zero c hc))
      · exact .inr (.inr ⟨hc ▸ hend, hc⟩)
    refine ⟨.intro ⟨rfl, Tree.start_node, Tree.stop_node, fun c hc hextra => ?_, fun c hc hl => ?_,
      fun hp c hc q hq hl => ?_, nofun, nofun, nofun, nofun, by simp⟩ fun c hc => ?_, .inl rfl⟩
    · rcases hchildren c hc with h | h | ⟨-, rfl⟩
      · exact h
      · exact hjoined.extras c h hextra
      · simp [htoken.extra] at hextra
    · rcases hchildren c hc with (h | h) | h | ⟨h, -⟩
      · simp [hl] at h
      · simp [hl] at h
      · exact hjoined.taken c h hl
      · simp [hl] at h
    · rcases hchildren c hc with (h | h) | h | ⟨h, -⟩
      · simp [hl] at h
      · simp [hl] at h
      · exact hjoined.others hp c h q hq hl
      · simp [hl] at h
    · have hc : c ∈ us ++ t.children ++ (es ++ [token]) := hc
      simp only [List.mem_append, List.mem_singleton] at hc
      rcases hc with (hc | hc) | hc | rfl
      · exact hus.composed c hc
      · exact ht.keeps.composed.children c hc
      · exact hes.composed c hc
      · exact htoken.composed
  gaveUp hts _ htoken _ := by
    rintro _ ⟨⟩
    refine ⟨Tree.composed_node _ (.inl rfl) fun c hc => ?_, .inr rfl⟩
    rcases List.mem_append.mp hc with hc | hc
    · exact hts.composed c hc
    · exact List.mem_singleton.mp hc ▸ htoken.composed

theorem readTree_composed (src : Bytes) : (readTree src).Composed src ∧
    ((readTree src).label = .phrase .sourceFile ∨ (readTree src).label = .error) := by
  rcases readTree_best (.composed src) rfl nofun with hbest | hnone
  · exact hbest _ rfl
  · rw [show readTree src = _ from hnone]
    refine ⟨.intro ⟨rfl, ?_, ?_, ?_, ?_, ?_, nofun, nofun, nofun, nofun, ?_⟩ ?_, .inl rfl⟩ <;>
      simp [Tree.node]

end ImportGroups.Source
