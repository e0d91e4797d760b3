import ImportGroups.Source.Automaton.Phrases
import ImportGroups.Source.Automaton.Rules
import ImportGroups.Source.Automaton.Shifts
import ImportGroups.Source.Automaton.States

/-!
The automaton that reads Go.

A state stands for what has been read so far. With the symbol of the next token it says what to do:
go to another state, or form a phrase from what was read last. Where the grammar leaves it open, it
says several things, and all of them are tried.

State 0 is the one of a reader that is out of step, and state 1 the one at the beginning.
-/

namespace ImportGroups.Source

abbrev State := Nat

inductive Action where
  | shift (target : State)
  /-- Forms a phrase. -/
  | reduce (rule : Rule)
  /-- Passes over a comment. -/
  | pass
  /-- The source is read. -/
  | accept
  /-- The reader is out of step and has to find a state to go on from. -/
  | recover
  deriving DecidableEq, Repr

namespace Automaton

def lost : State := 0

def initial : State := 1

def final : State := 4

def findEntry (key : Nat) : Nat → Nat → Option Nat
  | 0, _ => none
  | fuel + 1, entries =>
    if entries == 0 then none
    else if entries % 0x100000 / 0x1000 == key then some (entries % 0x1000)
    else findEntry key fuel (entries / 0x100000)

def findInRow (key : Nat) (row : List Nat) : Option Nat :=
  row.findSome? (findEntry key 18)

def stateRow (s : State) : Nat := stateRows[s]?.getD 0

def mode (s : State) : Nat := stateRow s % 0x10

def shiftEntry? (s : State) (t : Symbol) : Option Nat :=
  findInRow t.index (shiftRows[stateRow s / 0x10 % 0x1000]?.getD [])

def afterPhrase (s : State) (p : Phrase) : State :=
  (findInRow p.index (phraseRows[stateRow s / 0x10000 % 0x1000]?.getD [])).getD lost

/-- The rules of a number of reductions that apply before a symbol. -/
def findRules (t : Symbol) : Nat → Nat → List Rule
  | 0, _ => []
  | count + 1, entries =>
    let rest := findRules t count (entries / 0x10000)
    if (symbolSets[entries % 0x10000 / 0x100]?.getD default).contains t then
      (rules[entries % 0x100]?.getD default) :: rest
    else rest

def rulesBefore (s : State) (t : Symbol) : List Rule :=
  let row := stateRow s
  findRules t (row / 0x10000000 % 0x10) (row / 0x100000000)

def afterSymbol (s : State) (t : Symbol) : State :=
  match shiftEntry? s t with
  | some entry => entry % 0x800
  | none => lost

def strictSymbols : List Symbol := [.newline, .content, .rawContent]

def actions (s : State) (t : Symbol) : List Action :=
  if t == .comment then [.pass]
  else if s == lost then
    if strictSymbols.contains t then [] else [.recover]
  else if s == final then if t == .endOfFile then [.accept] else []
  else
    (rulesBefore s t).map .reduce ++
      match shiftEntry? s t with
      | some entry => if entry < 0x800 then [.shift entry] else []
      | none => []

def admits (s : State) (t : Symbol) : Bool := !(actions s t).isEmpty

def entryKeys : Nat → Nat → Nat
  | 0, _ => 0
  | fuel + 1, entries =>
    if entries == 0 then 0
    else 1 <<< (entries % 0x100000 / 0x1000) ||| entryKeys fuel (entries / 0x100000)

/-- The symbols before which one of a number of reductions applies, as a set. -/
def ruleKeys : Nat → Nat → Nat
  | 0, _ => 0
  | count + 1, entries =>
    (symbolSets[entries % 0x10000 / 0x100]?.getD default).bits |||
      ruleKeys count (entries / 0x10000)

def looseSet : SymbolSet := .ofList (Symbol.all.filter fun t => !strictSymbols.contains t)

def admitted (s : State) : SymbolSet :=
  if s == lost then looseSet
  else
    let row := stateRow s
    let shifts := (shiftRows[row / 0x10 % 0x1000]?.getD []).map (entryKeys 18)
    ⟨shifts.foldl (· ||| ·) (1 <<< Symbol.comment.index) |||
      ruleKeys (row / 0x10000000 % 0x10) (row / 0x100000000)⟩

/-- No other symbol that may come next could be read in place of `t`. -/
def isUnrivalled (s : State) (t : Symbol) : Bool :=
  t == .endOfFile || !(rivals[t.index]?.getD default).meets (admitted s)

end Automaton

end ImportGroups.Source
