import ImportGroups.Proofs.Reading.Lexing
import ImportGroups.Proofs.Reading.Outline
import ImportGroups.Proofs.Reading.Single

/-!
What the trees of a column cover and show.

The steps of a reading with one version in the form in which they are put together: a token is taken
onto a column, and the top of a column becomes a phrase.
-/

namespace ImportGroups.Source

open Text (Bytes)

variable {start : Mark} {k : Column}

def Tree.formed (p : Phrase) (ts : List Tree) (here : Mark) : Tree :=
  let tree := Tree.node (.phrase p) ts here
  { tree with rank := tree.rank + 0 }

theorem Forms.one {t : Symbol} {p : Phrase} (top : Column)
    (ha : Automaton.actions (Column.state (top ++ k)) t = [.reduce ⟨p, top.length, 0⟩])
    (hplain : top.Plain) (hne : top ≠ []) :
    Forms start t 1 (top ++ k)
      ((Automaton.afterPhrase k.state p, .formed p top.trees (k.mark start)) :: k) := by
  have hreduce : Column.reduce start ⟨p, top.length, 0⟩ top k =
      (Automaton.afterPhrase k.state p, .formed p top.trees (k.mark start)) :: k := by
    rw [hplain.reduce]
    rfl
  refine .step ha (hplain.top hne) ?_
  rw [hreduce]
  exact .refl _

theorem Takes.of_forms {token : Tree} {t : Symbol} {n : Nat} {k' : Column} {target : State}
    (hread : ∃ isKeyword, readToken k.state (k.mark start) = (token, isKeyword))
    (ht : token.symbol? = some t) (hforms : Forms start t n k k')
    (ha : Automaton.actions k'.state t = [.shift target]) :
    Takes start token n k ((target, token) :: k') :=
  ⟨hread, t, target, k', ht, hforms, ha, rfl⟩

theorem Reads.one {token : Tree} {n : Nat} {k' : Column} (h : Takes start token n k k')
    (hn : n ≤ 20) (hlt : (k.mark start).offset < token.stop.offset) : Reads start 1 k k' :=
  .head (.one h hn hlt) (.refl _)

theorem Mark.offset_lt_token {m : Mark} {t : Symbol} {w text more : Bytes}
    (h : m.rest = w ++ (text ++ more)) (hne : text ≠ []) :
    m.offset < (m.token t w text).stop.offset := by
  have hpos : 0 < text.length := List.length_pos_iff.mpr hne
  rw [token_stop, offset_past (rest_past h), offset_past h]
  omega

theorem Mark.rest_token {m : Mark} {t : Symbol} {w text more : Bytes}
    (h : m.rest = w ++ (text ++ more)) : (m.token t w text).stop.rest = more := by
  rw [token_stop, rest_past (rest_past h)]

namespace Tree

structure Covers (t : Tree) (a b : Mark) (es : List Event) : Prop where
  extra : t.extra = false
  counted : t.Counted
  start : t.start = a
  stop : t.stop = b
  outline : t.outline = es

theorem event?_token {t : Tree} {s : Symbol} (hl : t.label = .token s) (hm : t.missing = false) :
    t.event? = none := by
  cases hv : t.isVisible <;> simp [event?, hv, isError, hl, hm]

theorem covers_token (m : Mark) (s : Symbol) (w text : Bytes) :
    (m.token s w text).Covers (m.past w) ((m.past w).past text) [] where
  extra := rfl
  counted := counted_leaf s m.offset _ _
  start := rfl
  stop := rfl
  outline := by
    rw [outline_eq, event?_token rfl rfl]
    rfl

def shownPhrases : List Phrase := [.packageClause, .importDeclaration, .importSpec]

theorem event?_formed_of_not_mem {p : Phrase} {ts : List Tree} {here : Mark}
    (hp : p ∉ shownPhrases) : (formed p ts here).event? = none := by
  simp only [shownPhrases, List.mem_cons, List.not_mem_nil, or_false, not_or] at hp
  have hlabel : (formed p ts here).label = .phrase p := rfl
  have hmissing : (formed p ts here).missing = false := rfl
  unfold event?
  simp only [isError, hlabel, hmissing]
  cases (formed p ts here).isVisible
  · rfl
  · cases p <;> first | rfl | simp at hp

theorem counted_formed {p : Phrase} {ts : List Tree} {here : Mark} (h : ∀ t ∈ ts, Counted t) :
    Counted (formed p ts here) := by
  have hnode : Counted (.node (.phrase p) ts here) := counted_node h
  exact .intro hnode.size hnode.children

theorem outline_formed (p : Phrase) (ts : List Tree) (here : Mark) :
    (formed p ts here).outline = (formed p ts here).event?.toList ++ ts.flatMap outline := by
  rw [outline_eq]
  rfl

/-- Trees side by side that cover a text. -/
inductive CoverAll : List Tree → Mark → Mark → List Event → Prop where
  | one {t : Tree} {a b : Mark} {es : List Event} : t.Covers a b es → CoverAll [t] a b es
  | cons {t : Tree} {ts : List Tree} {a b c d : Mark} {es fs : List Event} :
      t.Covers a b es → CoverAll ts c d fs → CoverAll (t :: ts) a d (es ++ fs)

theorem CoverAll.append {ts us : List Tree} {a b c d : Mark} {es fs : List Event}
    (h : CoverAll ts a b es) (h' : CoverAll us c d fs) : CoverAll (ts ++ us) a d (es ++ fs) := by
  induction h with
  | one h => exact .cons h h'
  | cons h _ ih =>
    rw [List.append_assoc]
    exact .cons h ih

theorem CoverAll.top_ne_nil {top : Column} {a b : Mark} {es : List Event}
    (h : CoverAll top.trees a b es) : top ≠ [] := by
  rintro rfl
  cases h

theorem CoverAll.extra {ts : List Tree} {a b : Mark} {es : List Event} (h : CoverAll ts a b es) :
    ∀ t ∈ ts, t.extra = false := by
  induction h with
  | one h => simp [h.extra]
  | cons h _ ih => simpa [h.extra] using ih

theorem CoverAll.props {ts : List Tree} {a b : Mark} {es : List Event} (h : CoverAll ts a b es) :
    (∀ t ∈ ts, Counted t) ∧ ts.head?.map (·.start) = some a ∧
      ts.getLast?.map (·.stop) = some b ∧ ts.flatMap outline = es := by
  induction h with
  | one h => simp [h.counted, h.start, h.stop, h.outline]
  | @cons t ts a b c d es fs h _ ih =>
    obtain ⟨hc, _, hl, ho⟩ := ih
    refine ⟨?_, ?_, ?_, ?_⟩
    · simpa [h.counted] using hc
    · simp [h.start]
    · cases ts with
      | nil => simp at hl
      | cons u us => simpa using hl
    · simp [h.outline, ho]

theorem covers_formed {p : Phrase} {ts : List Tree} {here a b : Mark} {es : List Event}
    (h : CoverAll ts a b es) :
    (formed p ts here).Covers a b ((formed p ts here).event?.toList ++ es) := by
  obtain ⟨hc, hh, hl, ho⟩ := h.props
  refine ⟨rfl, counted_formed hc, ?_, ?_, ?_⟩
  · show (ts.head?.map (·.start)).getD here = a
    rw [hh, Option.getD_some]
  · show (ts.getLast?.map (·.stop)).getD here = b
    rw [hl, Option.getD_some]
  · rw [outline_formed, ho]

/-- A phrase that shows nothing itself shows what its parts show. -/
theorem covers_formed_plain {p : Phrase} {ts : List Tree} {here a b : Mark} {es : List Event}
    (h : CoverAll ts a b es) (hp : p ∉ shownPhrases) : (formed p ts here).Covers a b es := by
  have hcovers : (formed p ts here).Covers a b _ := covers_formed h
  rwa [event?_formed_of_not_mem hp] at hcovers

theorem Covers.withRank {t : Tree} {a b : Mark} {es : List Event} (h : t.Covers a b es) (r : Int) :
    Covers { t with rank := r } a b es where
  extra := h.extra
  counted := .intro h.counted.size h.counted.children
  start := h.start
  stop := h.stop
  outline := by
    rw [← h.outline, outline_eq, outline_eq t]
    rfl

theorem covers_formed_clause {p : Phrase} {ts : List Tree} {here a b : Mark} {es : List Event}
    (clause : Spot → Spot → Event) (h : CoverAll ts a b es)
    (hclause : (formed p ts here).event? =
      some (clause (formed p ts here).start.toSpot (formed p ts here).stop.toSpot)) :
    (formed p ts here).Covers a b (clause a.toSpot b.toSpot :: es) := by
  have hcovers : (formed p ts here).Covers a b _ := covers_formed h
  rwa [hclause, hcovers.start, hcovers.stop] at hcovers

end Tree

/-- The top of a column becomes a phrase that shows nothing itself, whatever its rank is. -/
theorem forms_plain (start : Mark) (k top : Column) {t : Symbol} {p : Phrase} {r : Int} {a b : Mark}
    {es : List Event}
    (ha : Automaton.actions (Column.state (top ++ k)) t = [.reduce ⟨p, top.length, r⟩])
    (hcover : Tree.CoverAll top.trees a b es) (hp : p ∉ Tree.shownPhrases) :
    ∃ tree : Tree, tree.label = .phrase p ∧ tree.children = top.trees ∧ tree.Covers a b es ∧
      Forms start t 1 (top ++ k) ((Automaton.afterPhrase k.state p, tree) :: k) := by
  have hplain : top.Plain := by
    intro x hx
    exact hcover.extra x.2 (List.mem_reverse.mpr (List.mem_map_of_mem hx))
  let tree := Tree.formed p top.trees (k.mark start)
  have htree : tree.Covers a b es := Tree.covers_formed_plain hcover hp
  refine ⟨_, rfl, rfl, htree.withRank ((Tree.node (.phrase p) top.trees (k.mark start)).rank + r),
    .step ha (hplain.top hcover.top_ne_nil) ?_⟩
  have hreduce : Column.reduce start ⟨p, top.length, r⟩ top k =
      (Automaton.afterPhrase k.state p,
        { tree with rank := (Tree.node (.phrase p) top.trees (k.mark start)).rank + r }) :: k := by
    rw [hplain.reduce]
    rfl
  rw [hreduce]
  exact .refl _

end ImportGroups.Source
