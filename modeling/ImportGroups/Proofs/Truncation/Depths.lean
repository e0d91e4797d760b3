import ImportGroups.Proofs.Soundness.Depths

/-!
Rules that reach below an import block that is not closed.

There are few such rules: below a word `import`, below the parenthesis that opens a block, and below
the items of a file.
-/

namespace ImportGroups.Source

namespace Automaton

def importDepth : State → Nat := listedDepth
  [(3, 0), (9, 1), (10, 1), (11, 1), (12, 1), (13, 1), (14, 1), (15, 1), (16, 1), (20, 2), (21, 2),
   (25, 2), (26, 2), (27, 2), (28, 2), (29, 2), (30, 2), (31, 2), (32, 2), (33, 2), (34, 2), (41, 3),
   (42, 3), (43, 3), (47, 3), (48, 3), (49, 3), (50, 3), (51, 3), (52, 3), (53, 3), (54, 3), (59, 4),
   (60, 4), (64, 4), (65, 4), (66, 4), (67, 4), (934, 5), (1130, 5)]

theorem depths_import : Depths importDepth [(15, ⟨.importDeclaration, 2, 0⟩)] :=
  depths_of_list (by decide +kernel)

def blockDepths : List (State × Nat) :=
  [(10, 0), (12, 1), (20, 1), (21, 1), (26, 1), (27, 1), (28, 1), (29, 1), (30, 1), (41, 2), (42, 2),
   (43, 2), (47, 2), (48, 2), (49, 2), (50, 2), (51, 2), (52, 3), (59, 3), (60, 3), (64, 3), (65, 3),
   (66, 3), (67, 3), (934, 4), (1130, 4)]

/-- The states after a whole block, each with the rule that applies there. -/
def blockRules : List (State × Rule) :=
  [(27, ⟨.importSpecList, 2, 0⟩), (50, ⟨.importSpecList, 3, 0⟩), (64, ⟨.importSpecList, 4, 0⟩),
   (1130, ⟨.importSpecList, 5, 0⟩)]

theorem depths_block : Depths (listedDepth blockDepths) blockRules :=
  depths_of_list (by decide +kernel)

/-- Only a closing parenthesis leads from the state with this row to the end of a block. -/
def closesRight (row : Nat) : Bool :=
  (shiftRows.toList[row / 0x10 % 0x1000]?.getD []).all (entriesAll (fun key v =>
      Nat.beq key Symbol.rightParen.index || !blockRules.any (·.1 == v % 0x800)) 18) &&
    (phraseRows.toList[row / 0x10000 % 0x1000]?.getD []).all (entriesAll (fun _ v =>
      !blockRules.any (·.1 == v)) 18)

theorem rightParen_of_after {s : State} {l : Label} (hs : listedDepth blockDepths s < unreached)
    (h : ∃ x ∈ blockRules, after s l = x.1) : l = .token .rightParen := by
  have hall : blockDepths.all (fun x => closesRight (stateRow x.1)) = true := by decide +kernel
  have hlost : after s l ≠ lost := by
    obtain ⟨x, hx, hafter⟩ := h
    have hne : ∀ x ∈ blockRules, x.1 ≠ lost := by decide
    exact hafter ▸ hne x hx
  have hany : blockRules.any (·.1 == after s l) = true := by
    obtain ⟨x, hx, hafter⟩ := h
    exact List.any_eq_true.mpr ⟨x, hx, by simp [hafter]⟩
  obtain ⟨d, hd⟩ := (listedDepth_cases blockDepths s).resolve_left (Nat.ne_of_lt hs)
  obtain ⟨hshifts, hphrases⟩ := Bool.and_eq_true_iff.mp (List.all_eq_true.mp hall _ hd)
  cases l with
  | token t =>
    obtain ⟨v, hfind, hafter⟩ := (afterSymbol_find s t).resolve_left hlost
    rw [after, hafter] at hany
    have hkey := findInRow_all hshifts hfind
    rw [hany, Bool.not_true, Bool.or_false] at hkey
    exact congrArg Label.token (Symbol.index_injective (Nat.eq_of_beq_eq_true hkey))
  | phrase p =>
    have hfind := (afterPhrase_find s p).resolve_left hlost
    have hnone := findInRow_all hphrases hfind
    rw [after] at hany
    simp [hany] at hnone
  | skipped => exact absurd rfl hlost
  | error => exact absurd rfl hlost

/-- Depths below an item without the line break after it. -/
def itemDepth : State → Nat := listedDepth [(23, 0), (17, 1)]

theorem depths_item : Depths itemDepth [(17, ⟨.fileItems, 2, 0⟩), (23, ⟨.sourceFile, 2, 0⟩)] :=
  depths_of_list (by decide +kernel)

theorem depths_whole : Depths (listedDepth [(4, 0)]) [] := depths_of_list (by decide +kernel)

/-- Nothing else leads to an item without the line break after it than what stands there alone. -/
theorem after_ne_item {s : State} (hs : s ∈ [23, 24]) (l : Label) : after s l ≠ 23 := by
  have htargets : ∀ s ∈ [23, 24], targetsAll (fun s' => s' != 23) (stateRow s) = true := by
    decide +kernel
  rcases after_of_targetsAll (htargets s hs) l with h | h
  · rw [h]
    decide
  · simpa using h

structure ItemSteps : Prop where
  items : after initial (.phrase .fileItems) = 7
  whole : after initial (.phrase .sourceFile) = 4
  word : after 7 (.token .importWord) = 3
  declaration : after 7 (.phrase .importDeclaration) = 23
  moreItems : after 7 (.phrase .fileItems) = 24
  paren : after 3 (.token .leftParen) = 10

theorem itemSteps : ItemSteps :=
  ⟨by decide +kernel, by decide +kernel, by decide +kernel, by decide +kernel, by decide +kernel,
    by decide +kernel⟩

def fileDigits : List Nat :=
  [0x2223333334434443311122222222233332323230111111222222222201ff11ff,
   0x5443333221436877665656554543332115443115265444431437655433445555,
   0x6654655446554365545533365554444443333332222543338757646536536543,
   0x5555544444433333323333323333323333335265554322222222211111877657,
   0x2222223213333322124985487437632763276343433333227226224444435322,
   0x6655555555444446443333522444443242876666655555555444444443333333,
   0x9888887777777766666666555557554444635433555554334439877777666666,
   0x332244444444434432987777766666666555555554444464433335223243554a,
   0x4333666665665564439877777666666665555555544444443333244324244433,
   0x9888888887777777766666866555573464444655544433226546546543434544,
   0x2876657655465443685744386756443546554444433228755555764665ba9999,
   0x222221154a987565987645487653538765343876534368766666554443332222,
   0x4434565454454354344334338677675665756656455464554664444433333322,
   0x5422188877776655665655455544444344332437654654344765465654543543,
   0x7644254435554444433223666655554444443333333222221543433142765542,
   0x5444444444444444443333333333333333222222222222111546544333211875,
   0x5554443333321339998888776677667665667555555477666665555555555555,
   0x3244322442426554366666555555555544444433332221114327766266455554,
   0x4544766655555448766666555555555554444444433333333322115466443553,
   0x4443333322222211181777766666666555555554444555755444644555655544,
   0x1111544332322432225554444333423332433332344332776655555555554444,
   0x63545546354554545535545445364a9887766555444444444333333332222222,
   0x54433432243577767465665]

def shiftDigits : List Nat :=
  [0x7665656554543332111165444421335523334411222222333201111222211101,
   0x7665465544655436554232544323225433387576465365365435443332213487,
   0x4444444324322232354335555433244443242213333221243433222221187765,
   0x4433228755555764644446554443226546546544454433366666553324243334,
   0x6534387653438766654443322222876657655465443685744336756443565544,
   0x54226543314425221433234456445345343463211a9875659876454876535387,
   0x6645525544433333213365655554444443333333224654433321187576442443,
   0x5444444433333333211546644355332443224424253544433322211143277662,
   0x1181777766666666555555554444555755444644555655544454476665555555,
   0x4977544444443333333322222221111544332322554433334333375543332222,
   0x544334322435777674656656354554635455454553554544536]

/-- The least depth of the states that have a row of phrases. -/
def phraseDigits : List Nat :=
  [0x33332214345433321154431156544442143765543244122223220111222201f1,
   0x5543222222222111176565454454354553554444443333332225433354334344,
   0x7437632763276343272444453255555444444333333233333233333333335265,
   0x6544322654444444333655443242444333243222322543333232222121498548,
   0x5665756656455464554444443333332222222115454333444322543344442254,
   0x5442435444322433142543234656545354343456545445435434433433867767,
   0x2442244242464433332221114326625555444333321355554444333333322432,
   0x5443433433333322221166655544444644445447555444444333331146643553,
   0x432225]

def fileDepth (s : State) : Nat := digit fileDigits s

/-- The rules that reach below the items of a file, each with the state where it applies. -/
def fileRules : List (State × Rule) :=
  [(7, ⟨.sourceFile, 1, 0⟩), (23, ⟨.sourceFile, 2, 0⟩), (24, ⟨.fileItems, 2, 0⟩)]

/-- What the digits say about the tables. -/
structure FileDigitsFit : Prop where
  shifts : rowsAll (fun i _ v => Nat.ble (fileDepth (v % 0x800)) (digit shiftDigits i + 1)) 0
    shiftRows.toList = true
  phrases : rowsAll (fun i _ v => Nat.ble (fileDepth v) (digit phraseDigits i + 1)) 0
    phraseRows.toList = true
  states : statesAll (fun s row => Nat.ble (digit shiftDigits (row / 0x10 % 0x1000)) (fileDepth s) &&
    Nat.ble (digit phraseDigits (row / 0x10000 % 0x1000)) (fileDepth s) &&
    rulesWithin (fileDepth s) fileRules s row) 0 stateRows.toList = true

theorem fileDigits_fit : FileDigitsFit := ⟨by decide +kernel, by decide +kernel, by decide +kernel⟩

theorem depth_le_of_find {rows : Array (List Nat)} {table : List Nat} (deep : Nat → Nat)
    {shift key v : Nat} {s : State}
    (hrows : rowsAll (fun i _ v => Nat.ble (deep v) (digit table i + 1)) 0 rows.toList = true)
    (hzero : rows[0]? = some [])
    (hstate : stateRows.toList[s]? = some (stateRow s) →
      digit table (stateRow s / shift % 0x1000) ≤ fileDepth s)
    (hfind : findInRow key (rows[stateRow s / shift % 0x1000]?.getD []) = some v) :
    deep v ≤ fileDepth s + 1 := by
  rw [← Array.getElem?_toList] at hfind hzero
  rcases stateRow_cases s with hs | hs
  · simp [hs, hzero, findInRow] at hfind
  · have hdigit := hstate hs
    cases hrow : rows.toList[stateRow s / shift % 0x1000]? with
    | none => simp [hrow, findInRow] at hfind
    | some row =>
      rw [hrow, Option.getD_some] at hfind
      have hdeep := Nat.le_of_ble_eq_true (rowsAll_find hrows hrow hfind)
      rw [Nat.zero_add] at hdeep
      omega

theorem fileDepth_step (s : State) (l : Label) :
    after s l = lost ∨ fileDepth (after s l) ≤ fileDepth s + 1 := by
  have hstate := fun (hs : stateRows.toList[s]? = some (stateRow s)) => by
    have hcheck := statesAll_get fileDigits_fit.states hs
    rw [Nat.zero_add, Bool.and_eq_true, Bool.and_eq_true] at hcheck
    exact hcheck.1
  cases l with
  | token t =>
    rcases afterSymbol_find s t with hlost | ⟨v, hfind, hafter⟩
    · exact .inl hlost
    · rw [after, hafter]
      exact .inr (depth_le_of_find (fun v => fileDepth (v % 0x800)) fileDigits_fit.shifts
        tables_fit.noShifts (fun hs => Nat.le_of_ble_eq_true (hstate hs).1) hfind)
  | phrase p =>
    rcases afterPhrase_find s p with hlost | hfind
    · exact .inl hlost
    · exact .inr (depth_le_of_find fileDepth fileDigits_fit.phrases tables_fit.noPhrases
        (fun hs => Nat.le_of_ble_eq_true (hstate hs).2) hfind)
  | skipped => exact .inl rfl
  | error => exact .inl rfl

theorem depths_file : Depths fileDepth fileRules := by
  refine ⟨fileDepth_step, fun {s t r} hr => ?_⟩
  rcases stateRow_cases s with hs | hs
  · obtain ⟨k, hk, -⟩ := mem_findRules hr
    simp [hs, ruleNumbers] at hk
  · have hcheck := statesAll_get fileDigits_fit.states hs
    rw [Nat.zero_add, Bool.and_eq_true] at hcheck
    exact parts_le_of_rulesWithin hcheck.2 hr

end Automaton

end ImportGroups.Source
