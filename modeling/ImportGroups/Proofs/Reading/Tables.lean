import ImportGroups.Source.Automaton

/-!
The entries of the automaton that a header and plain declarations go through.

The tables themselves are too large to be opened in a proof. Every entry that the proofs about
reading use is listed here, and the kernel looks it up once.
-/

namespace ImportGroups.Source

def terminators : List Symbol := [.newline, .semicolon]

def blockEnds : List Symbol := .rightParen :: terminators

inductive Slot where
  | alone
  | first
  /-- Behind the first spec of a block. -/
  | second
  | later

namespace Slot

def state : Slot → State
  | alone => 3
  | first => 10
  | second => 49
  | later => 66

/-- One state for a spec that stands alone, another one for those of a block. -/
def pick (slot : Slot) (alone block : State) : State :=
  match slot with
  | .alone => alone
  | _ => block

def named (slot : Slot) : State := slot.pick 9 26
def marked (slot : Slot) : State := slot.pick 13 28
def quoted (slot : Slot) : State := slot.pick 11 20
def filled (slot : Slot) : State := slot.pick 31 41
def closed (slot : Slot) : State := slot.pick 53 59
def closedEmpty (slot : Slot) : State := slot.pick 32 42
def rawQuoted (slot : Slot) : State := slot.pick 14 21
def rawFilled (slot : Slot) : State := slot.pick 34 43
def rawClosed (slot : Slot) : State := slot.pick 54 60

def done : Slot → State
  | alone => 15
  | first => 29
  | _ => 65

def ends : Slot → List Symbol
  | alone => terminators
  | _ => blockEnds

def opening (slot : Slot) : List State := [slot.state, slot.named, slot.marked]

def afterLiteral (slot : Slot) (s : State) : State :=
  if s = slot.state then slot.pick 16 30
  else if s = slot.named then slot.pick 25 47
  else slot.pick 33 48

def shifts (slot : Slot) : List (State × Symbol × State) :=
  [(slot.state, .identifier, slot.named), (slot.state, .underscore, slot.marked),
   (slot.state, .dot, 12),
   (slot.quoted, .content, slot.filled), (slot.quoted, .closingQuote, slot.closedEmpty),
   (slot.filled, .closingQuote, slot.closed),
   (slot.rawQuoted, .rawContent, slot.rawFilled), (slot.rawFilled, .rawQuote, slot.rawClosed)]

def endings (slot : Slot) : List (State × Phrase × Nat) :=
  [(slot.closed, .string, 3), (slot.closedEmpty, .string, 2), (slot.rawClosed, .rawString, 3),
   (slot.afterLiteral slot.state, .importSpec, 1), (slot.afterLiteral slot.named, .importSpec, 2),
   (slot.afterLiteral slot.marked, .importSpec, 2)]

theorem entries (slot : Slot) :
    (∀ x ∈ slot.shifts, Automaton.actions x.1 x.2.1 = [.shift x.2.2]) ∧
    (∀ x ∈ slot.endings, Automaton.mode x.1 ∈ [2, 4] ∧
      ∀ t ∈ slot.ends, Automaton.actions x.1 t = [.reduce ⟨x.2.1, x.2.2, 0⟩]) ∧
    (∀ s ∈ slot.opening, Automaton.mode s ∈ [1, 3] ∧
      Automaton.actions s .quote = [.shift slot.quoted] ∧
      Automaton.actions s .rawQuote = [.shift slot.rawQuoted] ∧
      ∀ p ∈ [Phrase.string, .rawString], Automaton.afterPhrase s p = slot.afterLiteral s) ∧
    (Automaton.mode slot.quoted = 9 ∧ Automaton.mode slot.filled = 9 ∧
      Automaton.mode slot.rawQuoted = 10 ∧ Automaton.mode slot.rawFilled = 0 ∧
      Automaton.admits slot.rawFilled .rawContent = false) ∧
    (Automaton.mode slot.state = 3 ∧
      Automaton.afterPhrase slot.state .importSpec = slot.done ∧
      Automaton.afterPhrase slot.state .dotName = slot.marked ∧
      ∀ t ∈ [Symbol.makeWord, .newWord], Automaton.admits slot.state t = false) := by
  cases slot <;> decide +kernel

theorem actions_shift (slot : Slot) {s target : State} {t : Symbol}
    (h : (s, t, target) ∈ slot.shifts) : Automaton.actions s t = [.shift target] :=
  slot.entries.1 (s, t, target) h

theorem ending (slot : Slot) {s : State} {p : Phrase} {n : Nat} (h : (s, p, n) ∈ slot.endings) :
    Automaton.mode s ∈ [2, 4] ∧ ∀ t ∈ slot.ends, Automaton.actions s t = [.reduce ⟨p, n, 0⟩] :=
  slot.entries.2.1 (s, p, n) h

theorem literal (slot : Slot) {s : State} (h : s ∈ slot.opening) :
    Automaton.mode s ∈ [1, 3] ∧ Automaton.actions s .quote = [.shift slot.quoted] ∧
      Automaton.actions s .rawQuote = [.shift slot.rawQuoted] ∧
      ∀ p ∈ [Phrase.string, .rawString], Automaton.afterPhrase s p = slot.afterLiteral s :=
  slot.entries.2.2.1 s h

theorem inside (slot : Slot) :
    Automaton.mode slot.quoted = 9 ∧ Automaton.mode slot.filled = 9 ∧
      Automaton.mode slot.rawQuoted = 10 ∧ Automaton.mode slot.rawFilled = 0 ∧
      Automaton.admits slot.rawFilled .rawContent = false :=
  slot.entries.2.2.2.1

theorem outset (slot : Slot) : Automaton.mode slot.state = 3 ∧
    Automaton.afterPhrase slot.state .importSpec = slot.done ∧
    Automaton.afterPhrase slot.state .dotName = slot.marked ∧
    ∀ t ∈ [Symbol.makeWord, .newWord], Automaton.admits slot.state t = false :=
  slot.entries.2.2.2.2

end Slot

/-- The symbols before which the items of a file become one tree. -/
def itemStarts : List Symbol :=
  [.importWord, .packageWord, .funcWord, .varWord, .constWord, .typeWord, .endOfFile]

/-- The states behind a word that introduces a name. -/
def namingStates : List State := [2, 1104, 1105, 1162, 1163]

namespace Automaton

def modeEntries : List (State × Nat) :=
  [(1, 1), (2, 0), (3, 3), (8, 2), (10, 3), (12, 1), (17, 1), (27, 2), (49, 3), (50, 2), (64, 2),
   (66, 3), (82, 1), (153, 1), (154, 1), (454, 2), (523, 8), (572, 0), (592, 0), (660, 0),
   (853, 2), (857, 4), (1104, 0), (1105, 0), (1109, 0), (1130, 2), (1138, 2), (1162, 0), (1163, 0)]

def shiftEntries : List (State × Symbol × State) :=
  [(1, .packageWord, 2), (2, .identifier, 8), (5, .newline, 17), (23, .newline, 17),
   (46, .newline, 17), (5, .semicolon, 17), (23, .semicolon, 17), (7, .packageWord, 2), (7, .importWord, 3),
   -- blocks of specs
   (3, .leftParen, 10), (10, .rightParen, 27), (29, .newline, 49), (29, .rightParen, 50),
   (49, .rightParen, 64), (51, .newline, 66), (51, .rightParen, 64), (66, .rightParen, 1130),
   -- declarations behind a header
   (7, .funcWord, 1163), (1163, .identifier, 1109), (1109, .leftParen, 572),
   (572, .rightParen, 853), (512, .leftBrace, 82), (82, .rightBrace, 1138),
   (7, .varWord, 1104), (1104, .identifier, 592), (592, .assign, 154), (154, .integer, 523),
   (7, .constWord, 1162), (1162, .identifier, 454), (454, .assign, 153), (153, .integer, 523),
   (7, .typeWord, 1105), (1105, .identifier, 660), (660, .identifier, 857)]

def ruleEntries : List (State × List Symbol × Rule) :=
  [(8, terminators, ⟨.packageClause, 2, 0⟩), (15, terminators, ⟨.importDeclaration, 2, 0⟩),
   (17, itemStarts, ⟨.fileItems, 2, 0⟩), (24, itemStarts, ⟨.fileItems, 2, 0⟩),
   (7, [.endOfFile], ⟨.sourceFile, 1, 0⟩),
   (12, [.quote, .rawQuote], ⟨.dotName, 1, 0⟩),
   -- blocks of specs
   (65, blockEnds, ⟨.moreImportSpecs, 2, 0⟩), (67, blockEnds, ⟨.moreImportSpecs, 2, 0⟩),
   (27, terminators, ⟨.importSpecList, 2, 0⟩), (50, terminators, ⟨.importSpecList, 3, 0⟩),
   (64, terminators, ⟨.importSpecList, 4, 0⟩), (1130, terminators, ⟨.importSpecList, 5, 0⟩),
   -- declarations behind a header
   (853, [.leftBrace], ⟨.parameterList, 2, 0⟩), (1138, [.newline], ⟨.block, 2, 0⟩),
   (1116, [.newline], ⟨.functionDeclaration, 4, 0⟩),
   (523, [.newline], ⟨.expression, 1, 0⟩), (457, [.newline], ⟨.expressionList, 1, 0⟩),
   (1009, [.newline], ⟨.varSpec, 3, 0⟩), (979, [.newline], ⟨.varDeclaration, 2, 0⟩),
   (1007, [.newline], ⟨.constSpec, 3, 0⟩), (978, [.newline], ⟨.constDeclaration, 2, 0⟩),
   (857, [.newline], ⟨.simpleType, 1, -1⟩), (941, [.newline], ⟨.typeSpec, 2, 0⟩),
   (980, [.newline], ⟨.typeDeclaration, 2, 0⟩), (976, [.newline], ⟨.statement, 1, 0⟩)]

def phraseEntries : List (State × Phrase × State) :=
  [(1, .packageClause, 5), (7, .packageClause, 23), (7, .importDeclaration, 23),
   (1, .fileItems, 7), (7, .fileItems, 24), (1, .sourceFile, final),
   -- blocks of specs
   (29, .moreImportSpecs, 51), (51, .moreImportSpecs, 67), (3, .importSpecList, 15),
   -- declarations behind a header
   (1109, .parameterList, 512), (512, .block, 1116), (7, .functionDeclaration, 23),
   (154, .expression, 457), (154, .expressionList, 1009), (1104, .varSpec, 979),
   (7, .varDeclaration, 976),
   (153, .expression, 457), (153, .expressionList, 1007), (1162, .constSpec, 978),
   (7, .constDeclaration, 976),
   (660, .simpleType, 941), (1105, .typeSpec, 980), (7, .typeDeclaration, 976),
   (7, .statement, 46)]

theorem entries :
    (∀ x ∈ modeEntries, mode x.1 = x.2) ∧
    (∀ x ∈ shiftEntries, actions x.1 x.2.1 = [.shift x.2.2]) ∧
    (∀ x ∈ ruleEntries, ∀ t ∈ x.2.1, actions x.1 t = [.reduce x.2.2]) ∧
    (∀ x ∈ phraseEntries, afterPhrase x.1 x.2.1 = x.2.2) ∧
    ∀ s ∈ namingStates, ∀ t ∈ [Symbol.underscore, .makeWord, .newWord], admits s t = false := by
  decide +kernel

theorem mode_entry {s : State} {m : Nat} (h : (s, m) ∈ modeEntries) : mode s = m :=
  entries.1 (s, m) h

theorem shift_entry {s target : State} {t : Symbol} (h : (s, t, target) ∈ shiftEntries) :
    actions s t = [.shift target] :=
  entries.2.1 (s, t, target) h

theorem rule_entry {s : State} {ts : List Symbol} {rule : Rule} (h : (s, ts, rule) ∈ ruleEntries)
    {t : Symbol} (ht : t ∈ ts) : actions s t = [.reduce rule] :=
  entries.2.2.1 (s, ts, rule) h t ht

theorem phrase_entry {s target : State} {p : Phrase} (h : (s, p, target) ∈ phraseEntries) :
    afterPhrase s p = target :=
  entries.2.2.2.1 (s, p, target) h

theorem admits_naming {s : State} (hs : s ∈ namingStates) {t : Symbol}
    (ht : t ∈ [Symbol.underscore, .makeWord, .newWord]) : admits s t = false :=
  entries.2.2.2.2 s hs t ht

end Automaton

end ImportGroups.Source
