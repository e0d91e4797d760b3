import ImportGroups.Proofs.Soundness.Zones

/-!
What the zones say about the steps of the automaton.
-/

namespace ImportGroups.Source

theorem Symbol.index_injective : Function.Injective Symbol.index := by
  intro a b h
  rw [← Symbol.ofNat_ctorIdx a, ← Symbol.ofNat_ctorIdx b]
  exact congrArg Symbol.ofNat h

theorem Phrase.index_injective : Function.Injective Phrase.index := by
  intro a b h
  rw [← Phrase.ofNat_ctorIdx a, ← Phrase.ofNat_ctorIdx b]
  exact congrArg Phrase.ofNat h

namespace Automaton

theorem stateRow_cases (s : State) : stateRow s = 0 ∨ stateRows.toList[s]? = some (stateRow s) := by
  unfold stateRow
  cases h : stateRows[s]? with
  | none => exact .inl rfl
  | some row => exact .inr (by simpa using h)

variable {s : State} {t : Symbol} {p : Phrase} {z : Zone}

theorem lost_not_mem (z : Zone) : lost ∉ z.states := by cases z <;> decide

theorem leadsRight_sources {rowsOf keysOf : Zone → List Nat} {i key target : Nat}
    (h : leadsRight rowsOf keysOf i key target = true) (hz : target ∈ z.states)
    (hs : ownsRow rowsOf i s = true) :
    key ∈ keysOf z ∧ ∀ ys ∈ z.sources?, ∃ y ∈ ys, s ∈ y.states := by
  have hzoned : zonedStates.testBit target = true :=
    testBit_bits (List.mem_flatMap.mpr ⟨z, z.mem_all, hz⟩)
  simp only [leadsRight, hzoned, Bool.not_true, Bool.false_or, List.all_eq_true] at h
  have h := h z z.mem_all
  simp only [List.contains_iff_mem.mpr hz, Bool.not_true, Bool.false_or, Bool.and_eq_true] at h
  refine ⟨List.contains_iff_mem.mp h.1, fun ys hys => ?_⟩
  have h := h.2
  rw [Option.mem_def.mp hys] at h
  simp only [Option.all_some, Bool.and_eq_true, List.any_eq_true, List.all_eq_true] at h
  obtain ⟨⟨y, -, hy⟩, hall⟩ := h
  have howned : (ownedRows rowsOf).testBit i = true :=
    testBit_bits (List.mem_flatMap.mpr ⟨y, y.mem_all, List.contains_iff_mem.mp hy⟩)
  simp only [ownsRow, howned, Bool.not_true, Bool.false_or, List.any_eq_true, Bool.and_eq_true] at hs
  obtain ⟨x, -, hx, hsx⟩ := hs
  have hys := hall x x.mem_all
  simp only [hx, Bool.not_true, Bool.false_or] at hys
  exact ⟨x, List.contains_iff_mem.mp hys, List.contains_iff_mem.mp hsx⟩

/-- What the row of a state in a table gives for a key has been checked, and the state owns the row.
-/
theorem findInRow_checked {rows : Array (List Nat)} {rowsOf : Zone → List Nat} {shift key v : Nat}
    {check : Nat → Nat → Nat → Bool} (hrows : rowsAll check 0 rows.toList = true)
    (hzero : rows[0]? = some [])
    (hstates : statesAll (fun s row => ownsRow rowsOf (row / shift % 0x1000) s) 0
      stateRows.toList = true)
    (h : findInRow key (rows[stateRow s / shift % 0x1000]?.getD []) = some v) :
    ∃ i, check i key v = true ∧ ownsRow rowsOf i s = true := by
  rw [← Array.getElem?_toList] at h hzero
  rcases stateRow_cases s with hs | hs
  · simp [hs, hzero, findInRow] at h
  · have howns := statesAll_get hstates hs
    cases hrow : rows.toList[stateRow s / shift % 0x1000]? with
    | none => simp [hrow, findInRow] at h
    | some row =>
      rw [hrow, Option.getD_some] at h
      have hcheck := rowsAll_find hrows hrow h
      rw [Nat.zero_add] at hcheck howns
      exact ⟨_, hcheck, howns⟩

theorem afterSymbol_find (s : State) (t : Symbol) : afterSymbol s t = lost ∨
    ∃ v, findInRow t.index (shiftRows[stateRow s / 0x10 % 0x1000]?.getD []) = some v ∧
      afterSymbol s t = v % 0x800 := by
  unfold afterSymbol shiftEntry?
  cases findInRow t.index (shiftRows[stateRow s / 0x10 % 0x1000]?.getD []) with
  | none => exact .inl rfl
  | some v => exact .inr ⟨v, rfl, rfl⟩

theorem afterPhrase_find (s : State) (p : Phrase) : afterPhrase s p = lost ∨
    findInRow p.index (phraseRows[stateRow s / 0x10000 % 0x1000]?.getD []) =
      some (afterPhrase s p) := by
  unfold afterPhrase
  cases findInRow p.index (phraseRows[stateRow s / 0x10000 % 0x1000]?.getD []) with
  | none => exact .inl rfl
  | some v => exact .inr rfl

theorem afterSymbol_cases (s : State) (t : Symbol) : afterSymbol s t = lost ∨
    ∃ i v, afterSymbol s t = v % 0x800 ∧ shiftRight i t.index v = true ∧
      ownsRow Zone.shiftRows i s = true := by
  rcases afterSymbol_find s t with hlost | ⟨v, hfind, hafter⟩
  · exact .inl hlost
  · obtain ⟨i, hcheck, howns⟩ := findInRow_checked tables_fit.shifts tables_fit.noShifts
      tables_fit.shiftOwners hfind
    exact .inr ⟨i, v, hafter, hcheck, howns⟩

theorem symbol_into (h : afterSymbol s t ∈ z.states) :
    t ∈ z.symbols ∧ ∀ ys ∈ z.sources?, ∃ y ∈ ys, s ∈ y.states := by
  rcases afterSymbol_cases s t with hlost | ⟨i, v, htarget, hcheck, howns⟩
  · exact absurd (hlost ▸ h) (lost_not_mem z)
  · rw [htarget] at h
    obtain ⟨hkey, hsources⟩ := leadsRight_sources (Bool.and_eq_true_iff.mp hcheck).2 h howns
    refine ⟨?_, hsources⟩
    obtain ⟨u, hu, hindex⟩ := List.mem_map.mp hkey
    rwa [← Symbol.index_injective hindex]

theorem afterPhrase_cases (s : State) (p : Phrase) : afterPhrase s p = lost ∨
    ∃ i, phraseRight i p.index (afterPhrase s p) = true ∧ ownsRow Zone.phraseRows i s = true := by
  rcases afterPhrase_find s p with hlost | hfind
  · exact .inl hlost
  · exact .inr (findInRow_checked tables_fit.phrases tables_fit.noPhrases tables_fit.phraseOwners
      hfind)

theorem phrase_into (h : afterPhrase s p ∈ z.states) :
    p ∈ z.phrases ∧ ∀ ys ∈ z.sources?, ∃ y ∈ ys, s ∈ y.states := by
  rcases afterPhrase_cases s p with hlost | ⟨i, hcheck, howns⟩
  · exact absurd (hlost ▸ h) (lost_not_mem z)
  · obtain ⟨hkey, hsources⟩ := leadsRight_sources (Bool.and_eq_true_iff.mp hcheck).2 h howns
    refine ⟨?_, hsources⟩
    obtain ⟨q, hq, hindex⟩ := List.mem_map.mp hkey
    rwa [← Phrase.index_injective hindex]

theorem afterPhrase_spec (s : State) (hp : p ∈ specPhrases) :
    afterPhrase s p = lost ∨ ∃ z ∈ specZones, afterPhrase s p ∈ z.states := by
  rcases afterPhrase_cases s p with hlost | ⟨i, hcheck, -⟩
  · exact .inl hlost
  · have hkey : specKeys.testBit p.index = true := testBit_bits (List.mem_map_of_mem hp)
    have hzones := (Bool.and_eq_true_iff.mp hcheck).1
    simp only [hkey, Bool.not_true, Bool.false_or, List.any_eq_true] at hzones
    obtain ⟨z, hz, hs⟩ := hzones
    exact .inr ⟨z, hz, List.contains_iff_mem.mp hs⟩

theorem afterSymbol_quote (s : State) :
    afterSymbol s .quote = lost ∨ afterSymbol s .quote ∈ Zone.quoted.states := by
  rcases afterSymbol_cases s .quote with hlost | ⟨i, v, htarget, hcheck, -⟩
  · exact .inl hlost
  · rw [htarget]
    have hquote := (Bool.and_eq_true_iff.mp hcheck).1
    simp only [bne_self_eq_false, Bool.false_or] at hquote
    exact .inr (List.contains_iff_mem.mp hquote)

theorem afterSymbol_lost (t : Symbol) : afterSymbol lost t = lost := by
  have hrow : findInRow t.index (shiftRows[stateRow lost / 0x10 % 0x1000]?.getD []) = none := by
    rw [tables_fit.lostRow, Nat.zero_div, Nat.zero_mod, tables_fit.noShifts]
    rfl
  unfold afterSymbol shiftEntry?
  rw [hrow]

theorem afterPhrase_lost (p : Phrase) : afterPhrase lost p = lost := by
  have hrow : findInRow p.index (phraseRows[stateRow lost / 0x10000 % 0x1000]?.getD []) = none := by
    rw [tables_fit.lostRow, Nat.zero_div, Nat.zero_mod, tables_fit.noPhrases]
    rfl
  rw [afterPhrase, hrow]
  rfl

theorem rulesBefore_lost (t : Symbol) : rulesBefore lost t = [] := by
  simp only [rulesBefore, tables_fit.lostRow, Nat.zero_div, Nat.zero_mod, findRules]

theorem rulesBefore_checked {r : Rule} (h : r ∈ rulesBefore s t) :
    ∃ k, r = rules[k]?.getD default ∧ (∀ x ∈ Zone.formingRules, x.1 = k → s ∈ x.2.2.states) ∧
      (∀ x ∈ Zone.importRules, x.1 = k → ∃ z ∈ x.2.2, s ∈ z.states) ∧
      ∀ z, s ∈ Zone.states z → ∀ rs ∈ z.rules?, ∃ x ∈ rs, x.1 = k := by
  obtain ⟨k, hk, hr⟩ := mem_findRules h
  rcases stateRow_cases s with hs | hs
  · simp [hs, ruleNumbers] at hk
  · have hcheck := statesAll_get tables_fit.rules hs
    simp only [rulesRight, Nat.zero_add, List.all_eq_true, Bool.and_eq_true] at hcheck
    obtain ⟨⟨hforming, himporting⟩, hrules⟩ := hcheck k hk
    refine ⟨k, hr, fun x hx hxk => ?_, fun x hx hxk => ?_, fun z hz rs hrs => ?_⟩
    · have hkey : formingKeys.testBit k = true := testBit_bits (hxk ▸ List.mem_map_of_mem hx)
      simp only [hkey, Bool.not_true, Bool.false_or, List.all_eq_true] at hforming
      simpa [hxk] using hforming x hx
    · have hkey : importKeys.testBit k = true := testBit_bits (hxk ▸ List.mem_map_of_mem hx)
      simp only [hkey, Bool.not_true, Bool.false_or, List.all_eq_true] at himporting
      simpa [hxk] using himporting x hx
    · have hzoned : zonedStates.testBit s = true :=
        testBit_bits (List.mem_flatMap.mpr ⟨z, z.mem_all, hz⟩)
      simp only [hzoned, Bool.not_true, Bool.false_or, List.all_eq_true] at hrules
      have := hrules z z.mem_all
      simpa [hz, Option.mem_def.mp hrs] using this

theorem mem_zipIdx_rules {r : Rule} {k : Nat} (hk : r = rules[k]?.getD default)
    (hr : r ≠ default) : (r, k) ∈ rules.toList.zipIdx := by
  rw [List.mem_zipIdx_iff_getElem?, Array.getElem?_toList]
  cases hrule : rules[k]? with
  | none => exact absurd (by rw [hk, hrule]; rfl) hr
  | some r' => rw [hk, hrule, Option.getD_some]

theorem forming_zone {r : Rule} (h : r ∈ rulesBefore s t)
    (hr : r.phrase ∈ [Phrase.importSpec, .dotName, .string, .rawString]) :
    ∃ x ∈ Zone.formingRules, x.2.1 = r ∧ s ∈ x.2.2.states := by
  obtain ⟨k, hk, hzones, -, -⟩ := rulesBefore_checked h
  have hmem := mem_zipIdx_rules hk (by rintro rfl; exact absurd hr (by decide))
  obtain ⟨x, hx, hxk, hxr⟩ := tables_fit.forming (r, k) hmem hr
  exact ⟨x, hx, hxr, hzones x hx hxk⟩

theorem importing_zone {r : Rule} (h : r ∈ rulesBefore s t)
    (hr : r.phrase ∈ [Phrase.importDeclaration, .importSpecList, .moreImportSpecs]) :
    ∃ x ∈ Zone.importRules, x.2.1 = r ∧ ∃ z ∈ x.2.2, s ∈ z.states := by
  obtain ⟨k, hk, -, hzones, -⟩ := rulesBefore_checked h
  have hmem := mem_zipIdx_rules hk (by rintro rfl; exact absurd hr (by decide))
  obtain ⟨x, hx, hxk, hxr⟩ := tables_fit.importing (r, k) hmem hr
  exact ⟨x, hx, hxr, hzones x hx hxk⟩

theorem rule_of_zone {r : Rule} (h : r ∈ rulesBefore s t) (hz : s ∈ z.states)
    {rs : List (Nat × Rule)} (hrs : z.rules? = some rs) : ∃ x ∈ rs, x.2 = r := by
  obtain ⟨k, hk, -, -, hrules⟩ := rulesBefore_checked h
  obtain ⟨x, hx, rfl⟩ := hrules z hz rs hrs
  have hx' := tables_fit.numbered z z.mem_all rs hrs x hx
  rw [hx', Option.getD_some] at hk
  exact ⟨x, hx, hk.symm⟩

theorem rulesBefore_quoted (h : s ∈ Zone.quoted.states ∨ s ∈ Zone.rawQuoted.states) (t : Symbol) :
    rulesBefore s t = [] := by
  rw [List.eq_nil_iff_forall_not_mem]
  intro r hr
  rcases h with h | h
  · obtain ⟨x, hx, -⟩ := rule_of_zone hr h rfl
    exact List.not_mem_nil hx
  · obtain ⟨x, hx, -⟩ := rule_of_zone hr h rfl
    exact List.not_mem_nil hx

theorem Zone.unique {z z' : Zone} (h : s ∈ z.states) (h' : s ∈ z'.states) : z = z' :=
  tables_fit.apart z z.mem_all s h z' z'.mem_all h'

/-- The zones of a file down to the specs of a block. -/
def Zone.outer : List Zone :=
  [bottom, items, moreItems, whole, importWord, block, firstSpec, secondSpec, moreSpecs,
   firstSeparator, lastSeparator, innerSeparator]

/-- On a stack, specs may stand above a place with this state. -/
def HoldsSpecs (s : State) : Prop := ∃ z ∈ Zone.outer, s ∈ z.states

theorem not_holdsSpecs_lost : ¬ HoldsSpecs lost := fun ⟨z, _, h⟩ => lost_not_mem z h

theorem not_holdsSpecs (h : s ∈ z.states) (hz : z ∉ Zone.outer) : ¬ HoldsSpecs s := by
  rintro ⟨z', hz', h'⟩
  exact hz (Zone.unique h h' ▸ hz')

theorem Zone.outer_sources {z : Zone} (hz : z ∈ Zone.outer)
    (h : ∀ ys ∈ z.sources?, ∃ y ∈ ys, s ∈ y.states) : HoldsSpecs s := by
  have hall : ∀ z ∈ Zone.outer, ∃ ys ∈ z.sources?, ∀ y ∈ ys, y ∈ Zone.outer := by decide
  obtain ⟨ys, hys, hin⟩ := hall z hz
  obtain ⟨y, hy, hs⟩ := h ys hys
  exact ⟨y, hin y hy, hs⟩

end Automaton

end ImportGroups.Source
