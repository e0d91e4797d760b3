import ImportGroups.Source.Automaton
import Mathlib.Tactic.MkIffOfInductiveProp

/-!
The part of the automaton around imports.

The states on the way to an import spec and inside of it fall into zones. The zone of a state tells
what was read last and, for most zones, the zones that the state before may be in, so what a rule
puts together there is known. The tables are gone through once, by the kernel.
-/

namespace ImportGroups.Source.Automaton

inductive Zone where
  /-- Before a file. -/
  | bottom
  /-- After the first items of a file. -/
  | items
  | moreItems
  /-- After a whole file. -/
  | whole
  | importWord
  /-- After the parenthesis that opens a block of specs. -/
  | block
  | firstSpec
  /-- After the first two specs of a block. -/
  | secondSpec
  | moreSpecs
  /-- After the end of the first spec of a block. -/
  | firstSeparator
  /-- After the end of the second spec of a block, or of a later one that may be the last. -/
  | lastSeparator
  | innerSeparator
  /-- After a spec and the end of the one before it. -/
  | laterSpec
  /-- After a block of no specs. -/
  | emptyEnd
  /-- After a block of one spec. -/
  | singleEnd
  | blockEnd
  /-- After a block in which every spec has an end. -/
  | endedEnd
  /-- After the word `import` and what is imported. -/
  | declared
  /-- After the dot before a path. -/
  | dot
  /-- After the name before a path. -/
  | name
  /-- After a path without a name. -/
  | path
  | namedPath
  | quoted
  | filled
  | closedEmpty
  | closed
  | rawQuoted
  | rawFilled
  | rawClosed
  deriving DecidableEq, Repr

namespace Zone

def states : Zone → List State
  | bottom => [1]
  | items => [7]
  | moreItems => [24]
  | whole => [4]
  | importWord => [3, 45]
  | block => [10, 62]
  | firstSpec => [29, 71]
  | secondSpec => [51, 1093]
  | moreSpecs => [67]
  | firstSeparator => [49, 909]
  | lastSeparator => [66, 910]
  | innerSeparator => [934]
  | laterSpec => [65]
  | emptyEnd => [27, 70]
  | singleEnd => [50, 1201]
  | blockEnd => [64, 1203]
  | endedEnd => [1130, 1208]
  | declared => [15, 63]
  | dot => [12]
  | name => [9, 13, 26, 28]
  | path => [16, 30]
  | namedPath => [25, 33, 47, 48]
  | quoted => [11, 20, 38, 1145, 1150, 1155, 1160]
  | filled => [31, 41, 56, 1147, 1152, 1157, 1161]
  | closedEmpty => [32, 42, 57, 397, 449, 558, 646]
  | closed => [53, 59, 68, 399, 451, 560, 648]
  | rawQuoted => [14, 21, 39, 1422, 1423, 1424, 1425]
  | rawFilled => [34, 43, 58, 1399, 1406, 1413, 1419]
  | rawClosed => [54, 60, 69, 398, 450, 559, 647]

def all : List Zone :=
  [bottom, items, moreItems, whole, importWord, block, firstSpec, secondSpec, moreSpecs,
   firstSeparator, lastSeparator, innerSeparator, laterSpec, emptyEnd, singleEnd, blockEnd, endedEnd,
   declared, dot, name, path, namedPath, quoted, filled, closedEmpty, closed, rawQuoted, rawFilled, rawClosed]

def symbols : Zone → List Symbol
  | importWord => [.importWord]
  | block => [.leftParen]
  | firstSeparator | lastSeparator | innerSeparator => [.newline, .semicolon, .zero]
  | emptyEnd | singleEnd | blockEnd | endedEnd => [.rightParen]
  | dot => [.dot]
  | name => [.identifier, .underscore]
  | quoted => [.quote]
  | filled => [.content, .escape]
  | closedEmpty | closed => [.closingQuote]
  | rawQuoted | rawClosed => [.rawQuote]
  | rawFilled => [.rawContent]
  | _ => []

def phrases : Zone → List Phrase
  | items | moreItems => [.fileItems]
  | whole => [.sourceFile]
  | firstSpec | laterSpec => [.importSpec]
  | declared => [.importSpec, .importSpecList]
  | secondSpec | moreSpecs => [.moreImportSpecs]
  | name => [.dotName]
  | path | namedPath => [.string, .rawString]
  | filled => [.stringPieces]
  | _ => []

/-- The zones that lead into a zone. A literal may start in other states, too. -/
def sources? : Zone → Option (List Zone)
  | bottom => some []
  | items | whole => some [bottom]
  | moreItems => some [items, moreItems]
  | importWord => some [bottom, items, moreItems]
  | block => some [importWord]
  | firstSpec => some [block]
  | secondSpec => some [firstSpec]
  | moreSpecs => some [secondSpec, moreSpecs]
  | firstSeparator => some [firstSpec]
  | lastSeparator => some [secondSpec]
  | innerSeparator => some [moreSpecs]
  | laterSpec => some [firstSeparator, lastSeparator, innerSeparator]
  | emptyEnd => some [block]
  | singleEnd => some [firstSpec]
  | blockEnd => some [secondSpec, firstSeparator]
  | endedEnd => some [lastSeparator]
  | declared => some [importWord]
  | dot | name | path => some [importWord, block, firstSeparator, lastSeparator, innerSeparator]
  | namedPath => some [name]
  | quoted | rawQuoted => none
  | filled | closedEmpty => some [quoted]
  | closed => some [filled]
  | rawFilled => some [rawQuoted]
  | rawClosed => some [rawFilled]

def shiftRows : Zone → List Nat
  | bottom | items => [1]
  | moreItems => [13]
  | importWord => [3, 25]
  | block => [6, 31]
  | firstSpec => [15, 34]
  | secondSpec => [27, 445]
  | moreSpecs => [33]
  | firstSeparator => [26, 377]
  | lastSeparator => [32, 378]
  | innerSeparator => [379]
  | quoted => [7, 11, 20, 476, 481, 486, 491]
  | filled => [16, 22, 29, 478, 483, 488, 492]
  | rawQuoted => [8, 12, 21, 682, 683, 684, 685]
  | rawFilled => [17, 23, 30, 659, 666, 673, 679]
  | _ => []

def phraseRows : Zone → List Nat
  | bottom => [1]
  | items => [3]
  | moreItems => [11]
  | importWord => [2, 19]
  | block => [5, 22]
  | firstSpec => [14, 23]
  | secondSpec | moreSpecs => [21]
  | firstSeparator | lastSeparator | innerSeparator => [20]
  | name => [4, 7, 12, 13]
  | quoted => [6, 10, 18, 443, 447, 451, 455]
  | _ => []

/-- The rules that form a spec or a part of it, each with its number and the zone in which it
applies. -/
def formingRules : List (Nat × Rule × Zone) :=
  [(5, ⟨.importSpec, 1, 0⟩, path), (6, ⟨.importSpec, 2, 0⟩, namedPath), (7, ⟨.dotName, 1, 0⟩, dot),
   (190, ⟨.rawString, 3, 0⟩, rawClosed), (191, ⟨.string, 2, 0⟩, closedEmpty),
   (192, ⟨.string, 3, 0⟩, closed)]

/-- The rules that put specs together, each with its number and the zones in which it applies. -/
def importRules : List (Nat × Rule × List Zone) :=
  [(4, ⟨.importDeclaration, 2, 0⟩, [declared]), (8, ⟨.importSpecList, 2, 0⟩, [emptyEnd]),
   (9, ⟨.importSpecList, 3, 0⟩, [singleEnd]), (10, ⟨.importSpecList, 4, 0⟩, [blockEnd]),
   (11, ⟨.importSpecList, 5, 0⟩, [endedEnd]),
   (194, ⟨.moreImportSpecs, 2, 0⟩, [moreSpecs, laterSpec])]

/-- The rules that may apply in a zone with their numbers, for the zones on the way to a spec, what
holds specs and the beginnings of literals. -/
def rules? : Zone → Option (List (Nat × Rule))
  | bottom => some [(0, ⟨.sourceFile, 0, 0⟩)]
  | items => some [(1, ⟨.sourceFile, 1, 0⟩)]
  | moreItems => some [(193, ⟨.fileItems, 2, 0⟩)]
  | moreSpecs | laterSpec => some [(194, ⟨.moreImportSpecs, 2, 0⟩)]
  | declared => some [(4, ⟨.importDeclaration, 2, 0⟩)]
  | whole | importWord | block | firstSpec | secondSpec | firstSeparator | lastSeparator
  | innerSeparator | quoted | rawQuoted => some []
  | _ => none

theorem mem_all (z : Zone) : z ∈ all := by cases z <;> decide

end Zone

def entriesAll (p : Nat → Nat → Bool) : Nat → Nat → Bool
  | 0, _ => true
  | fuel + 1, entries =>
    entries == 0 ||
      p (entries % 0x100000 / 0x1000) (entries % 0x1000) && entriesAll p fuel (entries / 0x100000)

theorem entriesAll_find {p : Nat → Nat → Bool} {key v fuel entries : Nat}
    (h : entriesAll p fuel entries = true) (hf : findEntry key fuel entries = some v) :
    p key v = true := by
  induction fuel generalizing entries with
  | zero => simp [findEntry] at hf
  | succ fuel ih =>
    rw [findEntry] at hf
    rw [entriesAll] at h
    split at hf
    · simp at hf
    · rename_i hne
      simp only [hne, Bool.false_or, Bool.and_eq_true] at h
      split at hf
      · rename_i hkey
        cases hf
        rw [← beq_iff_eq.mp hkey]
        exact h.1
      · exact ih h.2 hf

def rowsAll (p : Nat → Nat → Nat → Bool) : Nat → List (List Nat) → Bool
  | _, [] => true
  | i, row :: rows => row.all (entriesAll (p i) 18) && rowsAll p (i + 1) rows

theorem rowsAll_find {p : Nat → Nat → Nat → Bool} {rows : List (List Nat)} {row : List Nat}
    {first i key v : Nat} (h : rowsAll p first rows = true) (hrow : rows[i]? = some row)
    (hf : findInRow key row = some v) : p (first + i) key v = true := by
  induction rows generalizing first i with
  | nil => simp at hrow
  | cons r rows ih =>
    simp only [rowsAll, Bool.and_eq_true, List.all_eq_true] at h
    cases i with
    | zero =>
      cases hrow
      obtain ⟨entries, hmem, hfind⟩ := List.exists_of_findSome?_eq_some hf
      exact entriesAll_find (h.1 entries hmem) hfind
    | succ i =>
      have := ih h.2 (by simpa using hrow)
      rwa [Nat.add_assoc, Nat.add_comm 1 i] at this

def statesAll (p : State → Nat → Bool) : State → List Nat → Bool
  | _, [] => true
  | s, row :: rows => p s row && statesAll p (s + 1) rows

theorem statesAll_get {p : State → Nat → Bool} {rows : List Nat} {first i row : Nat}
    (h : statesAll p first rows = true) (hrow : rows[i]? = some row) :
    p (first + i) row = true := by
  induction rows generalizing first i with
  | nil => simp at hrow
  | cons r rows ih =>
    simp only [statesAll, Bool.and_eq_true] at h
    cases i with
    | zero =>
      cases hrow
      exact h.1
    | succ i =>
      have := ih h.2 (by simpa using hrow)
      rwa [Nat.add_assoc, Nat.add_comm 1 i] at this

def bits (ns : List Nat) : Nat := ns.foldl (fun set n => set ||| 1 <<< n) 0

theorem testBit_bits {ns : List Nat} {n : Nat} (h : n ∈ ns) : (bits ns).testBit n = true := by
  have hfold : ∀ (ns : List Nat) (set : Nat), (set.testBit n = true ∨ n ∈ ns) →
      (ns.foldl (fun set n => set ||| 1 <<< n) set).testBit n = true := by
    intro ns
    induction ns with
    | nil => simp
    | cons m ns ih =>
      intro set hset
      refine ih _ ?_
      rcases hset with hset | hset
      · exact .inl (by simp [hset])
      · rcases List.mem_cons.mp hset with rfl | hset
        · exact .inl (by simp)
        · exact .inr hset
  exact hfold ns 0 (.inr h)

def zonedStates : Nat := bits (Zone.all.flatMap Zone.states)

/-- An entry of the row `i` that leads into a zone has a key of the zone, and the row belongs to
zones that lead into it. -/
def leadsRight (rowsOf keysOf : Zone → List Nat) (i key target : Nat) : Bool :=
  !zonedStates.testBit target || Zone.all.all fun z => !z.states.contains target ||
    (keysOf z).contains key && z.sources?.all fun ys =>
      Zone.all.any (fun y => (rowsOf y).contains i) &&
        Zone.all.all fun y => !(rowsOf y).contains i || ys.contains y

def ownedRows (rowsOf : Zone → List Nat) : Nat := bits (Zone.all.flatMap rowsOf)

def ownsRow (rowsOf : Zone → List Nat) (i : Nat) (s : State) : Bool :=
  !(ownedRows rowsOf).testBit i ||
    Zone.all.any fun z => (rowsOf z).contains i && z.states.contains s

def shiftRight (i key v : Nat) : Bool :=
  (key != Symbol.quote.index || Zone.quoted.states.contains (v % 0x800)) &&
    leadsRight Zone.shiftRows (fun z => z.symbols.map Symbol.index) i key (v % 0x800)

def specPhrases : List Phrase := [.importSpec, .importSpecList, .moreImportSpecs]

def specZones : List Zone := [.declared, .firstSpec, .secondSpec, .moreSpecs, .laterSpec]

def specKeys : Nat := bits (specPhrases.map Phrase.index)

def phraseRight (i key target : Nat) : Bool :=
  (!specKeys.testBit key || specZones.any fun z => z.states.contains target) &&
    leadsRight Zone.phraseRows (fun z => z.phrases.map Phrase.index) i key target

def ruleNumbers : Nat → Nat → List Nat
  | 0, _ => []
  | count + 1, entries => entries % 0x100 :: ruleNumbers count (entries / 0x10000)

theorem mem_findRules {t : Symbol} {count entries : Nat} {r : Rule}
    (h : r ∈ findRules t count entries) :
    ∃ k ∈ ruleNumbers count entries, r = rules[k]?.getD default := by
  induction count generalizing entries with
  | zero => simp [findRules] at h
  | succ count ih =>
    have hrest : r ∈ findRules t count (entries / 0x10000) →
        ∃ k ∈ ruleNumbers (count + 1) entries, r = rules[k]?.getD default := by
      intro h
      obtain ⟨k, hk, hr⟩ := ih h
      exact ⟨k, List.mem_cons_of_mem _ hk, hr⟩
    rw [findRules] at h
    split at h
    · rcases List.mem_cons.mp h with hr | h
      · exact ⟨entries % 0x100, List.mem_cons_self, hr⟩
      · exact hrest h
    · exact hrest h

def formingKeys : Nat := bits (Zone.formingRules.map (·.1))

def importKeys : Nat := bits (Zone.importRules.map (·.1))

def rulesRight (s : State) (row : Nat) : Bool :=
  (ruleNumbers (row / 0x10000000 % 0x10) (row / 0x100000000)).all fun k =>
    (!formingKeys.testBit k || Zone.formingRules.all fun x => k != x.1 || x.2.2.states.contains s) &&
      (!importKeys.testBit k ||
        Zone.importRules.all fun x => k != x.1 || x.2.2.any fun z => z.states.contains s) &&
      (!zonedStates.testBit s || Zone.all.all fun z => !z.states.contains s ||
        z.rules?.all fun rs => rs.any (·.1 == k))

@[mk_iff]
structure TablesFit : Prop where
  shifts : rowsAll shiftRight 0 shiftRows.toList = true
  phrases : rowsAll phraseRight 0 phraseRows.toList = true
  shiftOwners : statesAll (fun s row => ownsRow Zone.shiftRows (row / 0x10 % 0x1000) s) 0
    stateRows.toList = true
  phraseOwners : statesAll (fun s row => ownsRow Zone.phraseRows (row / 0x10000 % 0x1000) s) 0
    stateRows.toList = true
  rules : statesAll rulesRight 0 stateRows.toList = true
  /-- No other rules form a spec or a part of it. -/
  forming : ∀ r ∈ Automaton.rules.toList.zipIdx,
    r.1.phrase ∈ [Phrase.importSpec, .dotName, .string, .rawString] →
      ∃ x ∈ Zone.formingRules, x.1 = r.2 ∧ x.2.1 = r.1
  /-- No other rules put specs together. -/
  importing : ∀ r ∈ Automaton.rules.toList.zipIdx,
    r.1.phrase ∈ [Phrase.importDeclaration, .importSpecList, .moreImportSpecs] →
      ∃ x ∈ Zone.importRules, x.1 = r.2 ∧ x.2.1 = r.1
  numbered : ∀ z ∈ Zone.all, ∀ rs ∈ z.rules?, ∀ x ∈ rs, Automaton.rules[x.1]? = some x.2
  /-- Where the items of a file lead to. -/
  items : (∀ s ∈ Zone.bottom.states, afterPhrase s .sourceFile ∈ Zone.whole.states) ∧
    ∀ z ∈ [Zone.bottom, .items, .moreItems], ∀ s ∈ z.states,
      ∃ z' ∈ [Zone.items, .moreItems], afterPhrase s .fileItems ∈ z'.states
  /-- Where the specs of a block lead to. -/
  specs : ∀ z ∈ [Zone.firstSpec, .secondSpec, .moreSpecs], ∀ s ∈ z.states,
    ∃ z' ∈ [Zone.secondSpec, .moreSpecs], afterPhrase s .moreImportSpecs ∈ z'.states
  /-- No state is in two zones. -/
  apart : ∀ z ∈ Zone.all, ∀ s ∈ z.states, ∀ z' ∈ Zone.all, s ∈ z'.states → z = z'
  noShifts : shiftRows[0]? = some []
  noPhrases : phraseRows[0]? = some []
  lostRow : stateRow lost = 0

instance : Decidable TablesFit := decidable_of_iff' _ tablesFit_iff

theorem tables_checked : decide TablesFit = true := by decide +kernel

theorem tables_fit : TablesFit := of_decide_eq_true tables_checked

end ImportGroups.Source.Automaton
