import ImportGroups.Proofs.Soundness.Ways

/-!
How deep a rule reaches.

A rule with more parts than there are steps from some states to the state where it applies reaches
below those states. There are few such rules. A list says how many steps it takes at least, and the
kernel checks it against the entries of the automaton.
-/

namespace ImportGroups.Source

open Automaton (lost after rulesBefore)

namespace Automaton

/-- Depths of states. The exceptions are the rules that reach below the states of depth zero. -/
structure Depths (depth : State → Nat) (exceptions : List (State × Rule)) : Prop where
  /-- One step leads no more than one deeper. -/
  step : ∀ (s : State) (l : Label), after s l = lost ∨ depth (after s l) ≤ depth s + 1
  rule : ∀ {s : State} {t : Symbol} {r : Rule}, r ∈ rulesBefore s t →
    r.parts ≤ depth s ∨ (s, r) ∈ exceptions

def digit (table : List Nat) (i : Nat) : Nat := (table[i / 64]?.getD 0) >>> (4 * (i % 64)) % 16

def partDigits : List Nat :=
  [0x5432113213243243323215432325436546543325432254321432543212122210,
   0x4323275322212212112333223131111432132323252132654343215432223442,
   0x2333243315432265454587654435432543223231434354397554324376543425,
   0x2222222222222221222222223]

def unreached : Nat := 15

theorem parts_eq_digit {k : Nat} {r : Rule} (hk : rules[k]? = some r) :
    r.parts = digit partDigits k := by
  have hall : ∀ x ∈ rules.toList.zipIdx, x.1.parts = digit partDigits x.2 := by decide +kernel
  exact hall (r, k) (by rw [List.mem_zipIdx_iff_getElem?, Array.getElem?_toList, hk])

theorem parts_le_digit (k : Nat) : (rules[k]?.getD default).parts ≤ digit partDigits k := by
  cases hk : rules[k]? with
  | none => exact Nat.zero_le _
  | some r => exact Nat.le_of_eq (parts_eq_digit hk)

theorem digit_le (table : List Nat) (i : Nat) : digit table i ≤ unreached := by
  unfold digit unreached
  omega

/-- All rules of the state with this row have at most so many parts, apart from the exceptions. -/
def rulesWithin (depth : Nat) (exceptions : List (State × Rule)) (s : State) (row : Nat) : Bool :=
  (ruleNumbers (row / 0x10000000 % 0x10) (row / 0x100000000)).all fun k =>
    Nat.ble (digit partDigits k) depth || exceptions.contains (s, rules[k]?.getD default)

theorem parts_le_of_rulesWithin {depth : Nat} {exceptions : List (State × Rule)} {s : State}
    {t : Symbol} {r : Rule} (h : rulesWithin depth exceptions s (stateRow s) = true)
    (hr : r ∈ rulesBefore s t) : r.parts ≤ depth ∨ (s, r) ∈ exceptions := by
  obtain ⟨k, hk, hr⟩ := mem_findRules hr
  rw [hr]
  rcases Bool.or_eq_true_iff.mp (List.all_eq_true.mp h k hk) with hle | hmem
  · exact .inl (Nat.le_trans (parts_le_digit k) (Nat.le_of_ble_eq_true hle))
  · exact .inr (List.contains_iff_mem.mp hmem)

/-- All states that come after the state with this row satisfy `p`. -/
def targetsAll (p : State → Bool) (row : Nat) : Bool :=
  (shiftRows.toList[row / 0x10 % 0x1000]?.getD []).all (entriesAll (fun _ v => p (v % 0x800)) 18) &&
    (phraseRows.toList[row / 0x10000 % 0x1000]?.getD []).all (entriesAll (fun _ v => p v) 18)

theorem findInRow_all {p : Nat → Nat → Bool} {rows : Array (List Nat)} {i key v : Nat}
    (h : (rows.toList[i]?.getD []).all (entriesAll p 18) = true)
    (hf : findInRow key (rows[i]?.getD []) = some v) : p key v = true := by
  rw [← Array.getElem?_toList] at hf
  obtain ⟨entries, hmem, hfind⟩ := List.exists_of_findSome?_eq_some hf
  exact entriesAll_find (List.all_eq_true.mp h entries hmem) hfind

theorem after_of_targetsAll {p : State → Bool} {s : State} (h : targetsAll p (stateRow s) = true)
    (l : Label) : after s l = lost ∨ p (after s l) = true := by
  obtain ⟨hshifts, hphrases⟩ := Bool.and_eq_true_iff.mp h
  cases l with
  | token t =>
    rcases afterSymbol_find s t with hlost | ⟨v, hfind, hafter⟩
    · exact .inl hlost
    · rw [after, hafter]
      exact .inr (findInRow_all hshifts hfind)
  | phrase q =>
    rcases afterPhrase_find s q with hlost | hfind
    · exact .inl hlost
    · exact .inr (findInRow_all hphrases hfind)
  | skipped => exact .inl rfl
  | error => exact .inl rfl

def listedDepth (entries : List (State × Nat)) (s : State) : Nat :=
  min unreached ((entries.lookup s).getD unreached)

def listDeepens (entries : List (State × Nat)) (exceptions : List (State × Rule)) : Bool :=
  entries.all fun x =>
    targetsAll (fun s => Nat.ble (listedDepth entries s) (listedDepth entries x.1 + 1))
        (stateRow x.1) &&
      rulesWithin (listedDepth entries x.1) exceptions x.1 (stateRow x.1)

theorem listedDepth_cases (entries : List (State × Nat)) (s : State) :
    listedDepth entries s = unreached ∨ ∃ d, (s, d) ∈ entries := by
  cases hs : entries.lookup s with
  | none => exact .inl (by simp [listedDepth, hs])
  | some d =>
    obtain ⟨before, after, rfl, -⟩ := List.lookup_eq_some_iff.mp hs
    exact .inr ⟨d, by simp⟩

theorem depths_of_list {entries : List (State × Nat)} {exceptions : List (State × Rule)}
    (h : listDeepens entries exceptions = true) : Depths (listedDepth entries) exceptions := by
  have hall := List.all_eq_true.mp h
  refine ⟨fun s l => ?_, fun {s t r} hr => ?_⟩
  · rcases listedDepth_cases entries s with hs | ⟨d, hs⟩
    · exact .inr (Nat.le_trans (Nat.min_le_left _ _) (by omega))
    · have hsteps := (Bool.and_eq_true_iff.mp (hall _ hs)).1
      exact (after_of_targetsAll hsteps l).imp_right Nat.le_of_ble_eq_true
  · rcases listedDepth_cases entries s with hs | ⟨d, hs⟩
    · obtain ⟨k, -, hr⟩ := mem_findRules hr
      rw [hs, hr]
      exact .inl (Nat.le_trans (parts_le_digit k) (digit_le _ k))
    · exact parts_le_of_rulesWithin (Bool.and_eq_true_iff.mp (hall _ hs)).2 hr

/-- Depths above the parts of an import declaration. -/
def specDepths : List (State × Nat) :=
  [(15, 0), (63, 0), (29, 0), (71, 0), (51, 0), (1093, 0), (67, 0), (65, 0), (49, 1), (66, 1),
   (909, 1), (910, 1), (934, 1), (50, 1), (1201, 1), (64, 1), (1203, 1), (1130, 2), (1208, 2),
   (12, 2), (20, 2), (21, 2), (26, 2), (28, 2), (30, 2), (41, 3), (42, 3), (43, 3), (47, 3), (48, 3),
   (52, 4), (59, 4), (60, 4)]

/-- The rules that take parts of an import declaration, each with the state where it applies. -/
def specRules : List (State × Rule) :=
  [(15, ⟨.importDeclaration, 2, 0⟩), (63, ⟨.importDeclaration, 2, 0⟩),
   (50, ⟨.importSpecList, 3, 0⟩), (1201, ⟨.importSpecList, 3, 0⟩), (64, ⟨.importSpecList, 4, 0⟩),
   (1203, ⟨.importSpecList, 4, 0⟩), (1130, ⟨.importSpecList, 5, 0⟩), (1208, ⟨.importSpecList, 5, 0⟩),
   (67, ⟨.moreImportSpecs, 2, 0⟩), (65, ⟨.moreImportSpecs, 2, 0⟩)]

theorem depths_spec : Depths (listedDepth specDepths) specRules := depths_of_list (by decide +kernel)

end Automaton

namespace Way

variable {L : Law} {b s : Stand} {ts : List Tree} {n : Nat} {depth : State → Nat}
  {exceptions : List (State × Rule)}

theorem depth_le (h : Way L b ts n s) (hd : Automaton.Depths depth exceptions)
    (hs : s.state ≠ lost) : depth s.state ≤ depth b.state + n := by
  induction h with
  | nil => exact Nat.le_refl _
  | extra _ _ hstate _ ih => exact hstate ▸ ih hs
  | part _ hpart h ih =>
    have hstep := (hd.step _ _).resolve_left fun hlost => hs (h.of_lost (hpart.state.trans hlost))
    have hrest := ih hs
    rw [hpart.state] at hrest
    omega
  | gap h => exact absurd (h.of_lost rfl) hs

theorem rule_mem {r : Rule} {u : Symbol} (h : Way L b ts n s)
    (hd : Automaton.Depths depth exceptions) (hb : depth b.state = 0)
    (hr : r ∈ rulesBefore s.state u) (hn : n < r.parts) : (s.state, r) ∈ exceptions := by
  have hs : s.state ≠ lost := by
    intro hs
    rw [hs, Automaton.rulesBefore_lost] at hr
    cases hr
  have hle := h.depth_le hd hs
  refine (hd.rule hr).resolve_left fun hparts => ?_
  omega

end Way

end ImportGroups.Source
