import ImportGroups.Proofs.Soundness.Contest
import ImportGroups.Source.Recovery

/-!
Forming phrases before a token that does not fit.

A version forms what it can and splits on the way. It and all versions that come from it stay at the
offset where it was, so the token is still the next one for each of them. A token that is put in takes
no room, and it is never a quote that opens a string: behind such a quote no phrase can be formed.
-/

namespace ImportGroups.Source

open Text (Bytes)
open Automaton (lost rulesBefore after)

theorem Automaton.mem_rulesBefore_of_actions {s : State} {t : Symbol} {r : Rule}
    (h : .reduce r ∈ actions s t) : r ∈ rulesBefore s t := by
  unfold actions at h
  split_ifs at h
  all_goals simp only [List.mem_append, List.mem_map, List.mem_singleton, List.not_mem_nil,
    reduceCtorEq] at h
  rcases h with ⟨r', hr, heq⟩ | h
  · cases heq
    exact hr
  · split at h
    · split_ifs at h <;> simp at h
    · simp at h

theorem mem_of_foldl_addRule {rules acc : List Rule} {r : Rule}
    (h : r ∈ rules.foldl addRule acc) : r ∈ acc ∨ r ∈ rules := by
  induction rules generalizing acc with
  | nil => exact .inl h
  | cons r' rules ih =>
    rcases ih h with h | h
    · unfold addRule at h
      split_ifs at h
      · exact .inl h
      · rcases List.mem_append.mp h with h | h
        · exact .inl h
        · exact .inr (List.mem_singleton.mp h ▸ List.mem_cons_self)
    · exact .inr (List.mem_cons_of_mem _ h)

namespace Contest

variable {L : Law} {c c' c'' : Contest} {n v w a start first : Nat} {symbol? : Option Symbol}

theorem rule_of_actionsBefore {s : State} {r : Rule}
    (h : r ∈ (rulesOf (actionsBefore symbol? s)).foldl addRule []) : ∃ u, r ∈ rulesBefore s u := by
  have hr := (mem_of_foldl_addRule h).resolve_left List.not_mem_nil
  obtain ⟨action, haction, hreduce⟩ := List.mem_filterMap.mp hr
  obtain ⟨u, -, hu⟩ := List.mem_flatMap.mp haction
  cases action with
  | reduce r' =>
    dsimp only at hreduce
    split_ifs at hreduce
    cases hreduce
    exact ⟨u, Automaton.mem_rulesBefore_of_actions hu⟩
  | _ => cases hreduce

theorem foldl_reduce_adds [L.Stable] {m : Nat} (rules : List Rule) (new? : Option Nat)
    (h : c.Sound L) (hv : c.IsAt v a) (ha : L.front ≤ a) (hrules : ∀ r ∈ rules, ∃ u, r ∈ rulesBefore (c.top v).state u)
    (hm : m ≤ c.versions.size) (hnew : ∀ w ∈ new?, m ≤ w ∧ w < c.versions.size) :
    c.Adds L a (rules.foldl (fun (x : Contest × Option Nat) r => x.1.reduce v r) (c, new?)).1 ∧
      ∀ w ∈ (rules.foldl (fun (x : Contest × Option Nat) r => x.1.reduce v r) (c, new?)).2, m ≤ w ∧
        w < (rules.foldl (fun (x : Contest × Option Nat) r => x.1.reduce v r)
          (c, new?)).1.versions.size := by
  induction rules generalizing c new? with
  | nil => exact ⟨.refl h, hnew⟩
  | cons r rules ih =>
    obtain ⟨⟨u, hr⟩, hrest⟩ := List.forall_mem_cons.mp hrules
    obtain ⟨hadds, hadded⟩ := reduce_adds h hv ha hr
    have hstate : ((c.reduce v r).1.top v).state = (c.top v).state :=
      congrArg Stand.state (hadds.stand h hv.lt)
    have hsize := hadds.size
    obtain ⟨hrules, hfound⟩ := ih _ hadds.sound (hv.adds h hadds) (hstate ▸ hrest)
      (Nat.le_trans hm hsize) fun w hw => ⟨Nat.le_trans hm (hadded w hw).1, (hadded w hw).2⟩
    exact ⟨hadds.trans hrules, hfound⟩

structure Forming (L : Law) (symbol? : Option Symbol) (start first a : Nat) (c c' : Contest) :
    Prop extends Proceeds L start c c' where
  fresh : ∀ u, u = start ∨ first ≤ u → u < c'.versions.size → c'.IsAt u a
  kept : symbol? = none → first ≤ c'.versions.size

namespace Forming

theorem merge (h : Forming L symbol? start first a c c') (hstart : start < first) (hw : first ≤ w)
    (hwv : w < v) (hv : v < c'.versions.size) (hm : c'.canMerge w v = true) :
    Forming L symbol? start first a c (c'.merge w v) := by
  obtain ⟨-, hgrows⟩ := h.sound.merge hm
  have hsize : c'.versions.size - 1 ≤ (c'.merge w v).versions.size := by
    refine size_of_heads fun u => ?_
    rw [head?_merge]
    split_ifs
    · exact .inl rfl
    · exact .inr (.inl rfl)
  obtain ⟨hsound, hahead⟩ := h.ready.merge hm
  refine ⟨h.toProceeds.trans ⟨⟨hsound, hgrows, fun u hu => ?_⟩, hahead⟩, fun u hu hlt => ?_,
    fun _ => by omega⟩
  · rw [head?_merge, if_pos (by omega)]
  · have hhead := head?_merge c' w v u
    have hsome := head?_isSome.mpr hlt
    rw [hhead] at hsome
    split_ifs at hhead hsome with huv
    · exact (h.fresh u hu (head?_isSome.mp hsome)).of_head h.sound hgrows hhead
    · exact (h.fresh (u + 1) (.inr (by omega)) (head?_isSome.mp hsome)).of_head h.sound hgrows hhead

theorem adds (h : Forming L symbol? start first a c c') (hstart : start ≤ c'.versions.size)
    (hfront : L.front ≤ a) (ha : c'.Adds L a c'') : Forming L symbol? start first a c c'' := by
  have hsize := ha.size
  have hahead := h.ahead.adds h.sound ha hfront
  refine ⟨h.toProceeds.trans ⟨ha.toExtends.mono hstart, hahead⟩, fun u hu hlt => ?_,
    fun hnone => Nat.le_trans (h.kept hnone) hsize⟩
  by_cases hu' : u < c'.versions.size
  · exact (h.fresh u hu hu').adds h.sound ha
  · exact ha.added u (by omega) hlt

theorem move (h : Forming L symbol? start first a c c') (hv : v = start ∨ first ≤ v)
    (hstart : start < first) (hvw : v < w) (hw : w < c'.versions.size) (hfirst : first ≤ w) :
    Forming L symbol? start first a c (c'.moveVersion w v) := by
  have hheads := head?_moveVersion hvw hw
  have hsize : c'.versions.size - 1 ≤ (c'.moveVersion w v).versions.size := by
    refine size_of_heads fun u => ?_
    rw [hheads]
    split_ifs
    · exact .inr (.inr (head?_isSome.mpr hw))
    · exact .inl rfl
    · exact .inr (.inl rfl)
  obtain ⟨hsound, hahead⟩ := h.ready.moveVersion hvw hw
  refine ⟨h.toProceeds.trans ⟨⟨hsound, .refl L _, fun u hu => ?_⟩, hahead⟩,
    fun u hu hlt => ?_, fun _ => by omega⟩
  · rw [hheads, if_neg (by omega), if_pos (by omega)]
  · have hhead := hheads u
    have hsome := head?_isSome.mpr hlt
    rw [hhead] at hsome
    split_ifs at hhead hsome with huv huw
    · exact (h.fresh w (.inr hfirst) hw).of_head h.sound (.refl L _) hhead
    · exact (h.fresh u hu (head?_isSome.mp hsome)).of_head h.sound (.refl L _) hhead
    · exact (h.fresh (u + 1) (.inr (by omega)) (head?_isSome.mp hsome)).of_head h.sound (.refl L _)
        hhead

theorem remove (h : Forming L symbol? start first a c c') (hv : v = start ∨ first ≤ v)
    (hfirst : first = start + 1) (hsome : symbol? ≠ none) :
    Forming L symbol? start first a c (c'.removeVersion v) := by
  refine ⟨h.toProceeds.trans ⟨⟨h.sound.removeVersion v, .refl L _, fun u hu => ?_⟩,
    h.ahead.removeVersion v⟩, fun u hu hlt => ?_, fun hnone => absurd hnone hsome⟩
  · rw [head?_removeVersion, if_pos (by omega)]
  · have hhead := head?_removeVersion c' v u
    have hsome := head?_isSome.mpr hlt
    rw [hhead] at hsome
    split_ifs at hhead hsome with huv
    · exact (h.fresh u hu (head?_isSome.mp hsome)).of_head h.sound (.refl L _) hhead
    · exact (h.fresh (u + 1) (.inr (by omega)) (head?_isSome.mp hsome)).of_head h.sound (.refl L _)
        hhead

end Forming

theorem formPhrases_forming [L.Stable] (hsymbol : symbol? = none ∨ first = start + 1)
    (hstart : start < first) (hfront : L.front ≤ a) (fuel turn : Nat) (hv : v = start ∨ first ≤ v) (able : Bool)
    (h : Forming L symbol? start first a c c') :
    Forming L symbol? start first a c (formPhrases symbol? start first fuel turn v able c').1 := by
  induction fuel generalizing turn v able c' with
  | zero => exact h
  | succ fuel ih =>
    rw [formPhrases]
    dsimp only
    split
    · exact h
    · rename_i hlt
      have hlt : v < c'.versions.size := Nat.lt_of_not_le hlt
      split
      · rename_i w hw
        have hmem := List.mem_of_find?_eq_some hw
        have hm := List.find?_some hw
        have hwv : w < v := List.mem_range.mp (List.mem_of_mem_drop hmem)
        have hfirst : first ≤ w := by
          obtain ⟨k, hk⟩ := List.getElem?_of_mem hmem
          simp only [List.getElem?_drop, List.getElem?_eq_some_iff, List.getElem_range] at hk
          obtain ⟨-, rfl⟩ := hk
          omega
        exact ih _ hv able (h.merge hstart hfirst hwv hlt hm)
      · have hat := h.fresh v hv hlt
        obtain ⟨hadds, hnew⟩ := foldl_reduce_adds
          ((rulesOf (actionsBefore symbol? (c'.top v).state)).foldl addRule []) none h.sound hat
          hfront (fun r hr => rule_of_actionsBefore hr) (Nat.le_refl _) (by simp)
        have hformed := h.adds (by omega) hfront hadds
        have hfirst : first ≤ c'.versions.size := by
          rcases hsymbol with hnone | hfirst
          · exact h.kept hnone
          · omega
        have hnext : (if v == start then c'.versions.size else v + 1) = start ∨
            first ≤ if v == start then c'.versions.size else v + 1 := by
          split_ifs with hstart'
          · exact .inr hfirst
          · simp only [beq_iff_eq] at hstart'
            omega
        generalize (if v == start then c'.versions.size else v + 1) = next at hnext ⊢
        generalize List.foldl _ _ _ = x at *
        split
        · exact ih _ hnext true hformed
        · rename_i w _ hw
          obtain ⟨hle, hw⟩ := hnew w (Option.filter_eq_some_iff.mp hw).1
          exact ih _ hv able (hformed.move hv hstart (by omega) hw (by omega))
        · refine ih _ hnext able ?_
          split_ifs with hsome
          · have hne : symbol? ≠ none := Option.isSome_iff_ne_none.mp hsome
            exact hformed.remove hv (hsymbol.resolve_left hne) hne
          · exact hformed

theorem prepare_forming [L.Stable] (h : c.Ready L) (hv : c.IsAt v a)
    (hsymbol : symbol? = none ∨ c.versions.size = v + 1) :
    Forming L symbol? v c.versions.size a c (c.prepare v symbol?).1 := by
  refine formPhrases_forming hsymbol hv.lt (h.front hv) turnLimit 0 (.inl rfl) false
    ⟨.refl h v, ?_, ?_⟩
  · rintro u (rfl | hu) hlt
    · exact hv
    · omega
  · exact fun _ => Nat.le_refl _

def withMissing (c : Contest) (v : Nat) (t : Symbol) : Contest :=
  (c.addVersion { c.version v with levels? := none }).push c.versions.size
    (some (.missingToken t (c.top v).mark)) (Automaton.afterSymbol (c.top v).state t)

theorem withMissing_proceeds [L.Stable] {t next : Symbol} (h : c.Ready L) (hv : c.IsAt v a)
    (hrules : rulesBefore (Automaton.afterSymbol (c.top v).state t) next ≠ []) :
    c.Proceeds L c.versions.size (c.withMissing v t) ∧
      (c.withMissing v t).IsAt c.versions.size a := by
  have hquote : t ≠ .quote := by
    rintro rfl
    rcases Automaton.afterSymbol_quote (c.top v).state with hlost | hquoted
    · rw [hlost, Automaton.rulesBefore_lost] at hrules
      exact hrules rfl
    · exact hrules (Automaton.rulesBefore_quoted (.inl hquoted) next)
  have hfront : L.front ≤ (c.top v).stand.offset :=
    Nat.le_trans (h.front hv) (Nat.le_of_eq hv.offset.symm)
  have hahead : (c.addVersion { c.version v with levels? := none }).Ahead L.front :=
    h.ahead.addVersion hfront
  obtain ⟨hcopy, hat, htop⟩ := h.addVersion_isAt (x := { c.version v with levels? := none }) hv.status
    (hv.isOpen h.toSound)
  unfold withMissing
  generalize c.addVersion { c.version v with levels? := none } = c' at *
  have htop : c'.top c.versions.size = c.top v := htop
  have hspans : Spans L.src (c.top v).stand
      ⟨Automaton.afterSymbol (c.top v).state t, (c.top v).mark.offset⟩
      (.missingToken t (c.top v).mark) :=
    ⟨Tree.sound_missingToken (h.on v) hquote, Nat.le_refl _, rfl,
      .inl (.intro nofun (by simp [Tree.missingToken])), nofun⟩
  have hpart : IsPart (c.top v).state (Automaton.afterSymbol (c.top v).state t)
      (.missingToken t (c.top v).mark) :=
    ⟨rfl, by rw [Tree.missingToken, after], fun _ => ⟨next, hrules⟩⟩
  have hpush : c'.Extends L c.versions.size (c'.push c.versions.size
      (some (.missingToken t (c.top v).mark)) (Automaton.afterSymbol (c.top v).state t)) := by
    refine hcopy.sound.push hat ?_ ?_ <;> rw [htop]
    · exact hspans
    · exact .part hpart (Law.Stable.putIn t _ hfront rfl)
  exact ⟨⟨hcopy.trans hpush, hahead.push hcopy.sound hat hpush.grows hfront⟩,
    hv.offset ▸ (hat.push _ _).1⟩

theorem putMissing_proceeds [L.Stable] (h : c.Ready L) (hv : c.IsAt v a) (hn : n ≤ c.versions.size)
    (hvn : v < n) (next : Symbol) (symbols : List Symbol) :
    c.Proceeds L n (c.putMissing v next symbols).1 := by
  induction symbols generalizing c with
  | nil => exact .refl h n
  | cons t symbols ih =>
    rw [putMissing]
    dsimp only
    split
    · exact ih h hv hn
    · rename_i hfits
      simp only [Bool.or_eq_true, not_or, List.isEmpty_iff] at hfits
      obtain ⟨htried, hat⟩ := withMissing_proceeds h hv hfits.2
      have hsize : (c.withMissing v t).versions.size = c.versions.size + 1 := by
        simp [withMissing, push, addVersion]
      have hproceeds : ∀ symbol? : Option Symbol,
          c.Proceeds L n ((c.withMissing v t).prepare c.versions.size symbol?).1 := fun _ =>
        (htried.trans (prepare_forming htried.ready hat (.inr hsize)).toProceeds).mono hn
      have hproceeds := hproceeds (if next == .endOfFile then none else some next)
      unfold withMissing at hproceeds
      generalize Contest.prepare _ _ _ = x at hproceeds ⊢
      obtain ⟨c', able⟩ := x
      cases able with
      | true => exact hproceeds
      | false =>
        exact hproceeds.trans (ih hproceeds.ready (hv.extends h.toSound hproceeds.toExtends hvn)
          (hproceeds.size hn))

theorem Ready.fallOff (h : c.Ready L) (hv : c.IsAt v a) :
    c.Proceeds L v (c.push v none lost) ∧
      ∀ {u b}, c.IsAt u b → (c.push v none lost).IsAt u b := by
  have hpush : c.Extends L v (c.push v none lost) := h.push hv rfl rfl
  have hfront : L.front ≤ (c.top v).mark.offset :=
    Nat.le_trans (h.front hv) (Nat.le_of_eq hv.offset.symm)
  refine ⟨⟨hpush, h.ahead.push h.toSound hv hpush.grows hfront⟩, fun {u b} hu => ?_⟩
  by_cases huv : u = v
  · subst huv
    exact hu.offset ▸ (hu.push none lost).1
  · exact hu.of_head h.toSound hpush.grows (head?_push_of_ne huv none lost)

-- The equations of `fall` are given by hand: those of its definition would unfold the list of all
-- symbols.
theorem fall_zero (token : Tree) (start first last v : Nat) (done : Bool) (c : Contest) :
    fall token start first last 0 v done c = c := by
  delta fall
  rfl

theorem fall_succ (token : Tree) (start first last fuel v : Nat) (done : Bool) (c : Contest) :
    fall token start first last (fuel + 1) v done c =
      if last ≤ v then c
      else
        let (c, done) :=
          match done, token.symbol? with
          | false, some next => c.putMissing v next (Symbol.all.drop 1)
          | _, _ => (c, done)
        fall token start first last fuel (if v == start then first else v + 1) done
          (c.push v none lost) := by
  delta fall
  rfl

theorem fall_isAt [L.Stable] {last : Nat} (token : Tree) (fuel : Nat) (done : Bool)
    (h : c.Ready L) (hlast : last ≤ c.versions.size)
    (hat : ∀ u, u = start ∨ first ≤ u → u < last → c.IsAt u a) (hv : v = start ∨ first ≤ v) :
    (fall token start first last fuel v done c).Ready L ∧
      ∀ u, u = start ∨ first ≤ u → u < last →
        (fall token start first last fuel v done c).IsAt u a := by
  induction fuel generalizing v done c with
  | zero =>
    rw [fall_zero]
    exact ⟨h, hat⟩
  | succ fuel ih =>
    rw [fall_succ]
    split
    · exact ⟨h, hat⟩
    · rename_i hlt
      have hlt : v < last := Nat.lt_of_not_le hlt
      have hmissing : c.Proceeds L last
          (match done, token.symbol? with
          | false, some next => c.putMissing v next (Symbol.all.drop 1)
          | _, _ => (c, done)).1 := by
        split
        · exact putMissing_proceeds h (hat v hv hlt) hlast hlt _ _
        · exact .refl h last
      dsimp only
      generalize (match done, token.symbol? with
          | false, some next => c.putMissing v next (Symbol.all.drop 1)
          | _, _ => (c, done)) = x at hmissing ⊢
      have hat' : ∀ u, u = start ∨ first ≤ u → u < last → x.1.IsAt u a :=
        fun u hu hlt => (hat u hu hlt).extends h.toSound hmissing.toExtends hlt
      obtain ⟨hfallen, hkeeps⟩ := hmissing.ready.fallOff (hat' v hv hlt)
      refine ih _ hfallen.ready ?_ (fun u hu hlt => hkeeps (hat' u hu hlt)) ?_
      · rw [size_push]
        exact hmissing.size hlast
      · split_ifs with hstart'
        · exact .inr (Nat.le_refl _)
        · simp only [beq_iff_eq] at hstart'
          omega

theorem Ready.mergeInto (h : c.Ready L) (others : List Nat) (w : Nat) :
    c.Proceeds L w (c.mergeInto others w) := by
  refine ⟨(mergeInto_extends h.toSound others w).1, ?_⟩
  unfold Contest.mergeInto partner?
  split
  · rename_i v hv
    have hm : c.canMerge v w = true := List.find?_some (p := fun v => c.canMerge v w) hv
    exact (h.merge hm).ahead
  · exact h.ahead

theorem mergeTimes_isAt (times : Nat) (h : c.Ready L) (hv : c.IsAt v a) (hvw : v < w) :
    (mergeTimes v w times c).Ready L ∧ (mergeTimes v w times c).IsAt v a := by
  induction times generalizing c with
  | zero => exact ⟨h, hv⟩
  | succ times ih =>
    have hmerged := h.mergeInto [v] w
    exact ih hmerged.ready (hv.extends h.toSound hmerged.toExtends hvw)

end Contest

end ImportGroups.Source
