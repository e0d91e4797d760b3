import ImportGroups.Proofs.Reading.Tables
import ImportGroups.Proofs.Truncation.Ending

/-!
The columns of an open block.

As long as nothing is wrong one version reads, and the states of its column tell what becomes of it
when the source ends there, or when a word follows that does not fit. All such columns are listed here.
-/

namespace ImportGroups.Source

open Automaton (lost actions)
open Text (Bytes)

namespace Footing

def ofStates (qs : List State) : Footing := qs.map (·, false)

/-- The reader is in step, and neither an extra nor a closing parenthesis can lead from one state to
the next. -/
def climbs : List State → Bool
  | [] => true
  | q :: qs =>
    q != lost && q != qs.headD Automaton.initial &&
      q != Automaton.afterSymbol (qs.headD Automaton.initial) .rightParen && climbs qs

theorem state_ofStates (qs : List State) : (ofStates qs).state = qs.headD Automaton.initial := by
  cases qs <;> rfl

/-- A version on this footing waits before the end of the source and finds a tree of the whole then. -/
def waits (f : Footing) : Bool :=
  [0, 1, 2, 3, 4, 9].contains (Automaton.mode f.state) && (actions f.state .endOfFile).isEmpty &&
    f.state != lost && f.ends

theorem waits_iff {f : Footing} : f.waits = true ↔ ((Automaton.mode f.state ∈ [0, 1, 2, 3, 4, 9] ∧
    actions f.state .endOfFile = []) ∧ f.state ≠ lost) ∧ f.ends = true := by
  simp only [waits, Bool.and_eq_true, List.contains_iff_mem, List.isEmpty_iff, bne_iff_ne]

/-- In the state a version can do nothing but take a token, and at the end of the source no token can be
missing. -/
def idles (q : State) : Bool :=
  [0, 1, 2, 3, 4, 9].contains (Automaton.mode q) && (actions q .endOfFile).isEmpty && q != lost &&
    (takes q && (formable q).isEmpty && (missing? .endOfFile q).isNone)

theorem endsAlone_of_rest {f : Footing} (htakes : takes f.state = true)
    (hformable : formable f.state = []) (hmissing : missing? .endOfFile f.state = none) :
    f.endsAlone = true := by
  have hsettle : settle [] (versionLimit + 1) f = some f := by
    rw [settle, htakes, hformable]
  rw [endsAlone, hsettle]
  show mends [f.state] f = true
  unfold mends
  rw [hmissing]

theorem waits_of_idles {f : Footing} (h : idles f.state = true) : f.waits = true := by
  simp only [idles, Bool.and_eq_true, List.contains_iff_mem, List.isEmpty_iff, bne_iff_ne,
    Option.isNone_iff_eq_none] at h
  obtain ⟨hwaits, ⟨htakes, hformable⟩, hmissing⟩ := h
  refine waits_iff.mpr ⟨hwaits, ?_⟩
  rw [ends, endsAlone_of_rest htakes hformable hmissing, Bool.true_or]

end Footing

namespace Slot

def column : Slot → List State
  | alone => [3, 7]
  | first => [10, 3, 7]
  | second => [49, 29, 10, 3, 7]
  | later => [66, 51, 29, 10, 3, 7]

/-- What may lie on such a column of the alias of a spec before its literal. -/
def aliases (slot : Slot) : List (List State) := [[], [slot.named], [slot.marked]]

def literals (slot : Slot) : List (List State) :=
  [[], [slot.quoted], [slot.filled, slot.quoted], [slot.closedEmpty, slot.quoted],
   [slot.closed, slot.filled, slot.quoted], [slot.rawFilled, slot.rawQuoted],
   [slot.rawClosed, slot.rawFilled, slot.rawQuoted]]

/-- What may lie on the column of a block when the source ends. -/
def remnants (slot : Slot) : List (List State) :=
  [12] :: slot.aliases.flatMap fun names => slot.literals.map (· ++ names)

theorem remnant_entries {slot : Slot} (hslot : slot ≠ .alone) : ∀ top ∈ slot.remnants,
    (Footing.ofStates (top ++ slot.column)).waits = true ∧
      Footing.climbs (top ++ slot.column) = true := by
  cases slot with
  | alone => exact absurd rfl hslot
  | first | second | later => decide +kernel

/-- No reserved word fits where a spec may start, and no token can be missing before one. -/
theorem word_entries {slot : Slot} (hslot : slot ≠ .alone) :
    slot.state ≠ lost ∧ Footing.takes slot.state = true ∧ Footing.formable slot.state = [] ∧
      ∀ x ∈ Symbol.reservedWords, actions slot.state x.2 = [] ∧
        Footing.missing? x.2 slot.state = none := by
  cases slot with
  | alone => exact absurd rfl hslot
  | first | second | later => decide +kernel

theorem soft_entries {slot : Slot} (hslot : slot ≠ .alone) : ∀ x ∈ Symbol.softWords,
    x.2 = .underscore ∨ Automaton.admits slot.state x.2 = false ∧ x.2.isReserved = false := by
  cases slot with
  | alone => exact absurd rfl hslot
  | first | second | later => decide +kernel

/-- Reserved words fit behind the items of a file at most, or where it begins. -/
theorem back_entries (slot : Slot) : ∀ f ∈ (Footing.ofStates slot.column).tails,
    f ∈ [[(7, false)], []] ∨
      ∀ x ∈ Symbol.reservedWords, Automaton.admits (Footing.state f) x.2 = false := by
  cases slot <;> decide +kernel

/-- The states behind a reserved word in which a version can do nothing but take a token. -/
def idleStates : List State :=
  [762, 1162, 201, 89, 1163, 200, 1342, 95, 3, 1340, 1341, 1343, 1263, 90, 1105, 1104]

def busyStates : List State := [963, 964, 975, 2, 96]

theorem idle_entries : ∀ q ∈ idleStates, Footing.idles q = true := by
  simp only [idleStates, List.forall_mem_cons]
  refine ⟨?_, ?_, ?_, ?_, ?_, ?_, ?_, ?_, ?_, ?_, ?_, ?_, ?_, ?_, ?_, ?_, List.forall_mem_nil _⟩
  all_goals decide +kernel

theorem busy_entries : ∀ q ∈ busyStates,
    Footing.waits [(q, false), (7, true), (7, false)] = true ∧
      Footing.waits [(q, false), (Automaton.initial, true)] = true := by
  simp only [busyStates, List.forall_mem_cons]
  refine ⟨?_, ?_, ?_, ?_, ?_, List.forall_mem_nil _⟩
  all_goals constructor <;> decide +kernel

theorem taken_entries : ∀ q ∈ [7, Automaton.initial], Automaton.mode q = 1 ∧
    ∀ x ∈ Symbol.reservedWords, Automaton.admits q x.2 = true →
      actions q x.2 = [.shift (Automaton.afterSymbol q x.2)] ∧
        (Automaton.afterSymbol q x.2 ∈ idleStates ∨ Automaton.afterSymbol q x.2 ∈ busyStates) := by
  decide +kernel

theorem resume_entries {f : Footing} {x : String × Symbol} (hf : f ∈ [[(7, false)], []])
    (hx : x ∈ Symbol.reservedWords) (hadmits : Automaton.admits f.state x.2 = true) :
    Automaton.mode f.state = 1 ∧ actions f.state x.2 = [.shift (Automaton.afterSymbol f.state x.2)] ∧
      Footing.waits ((Automaton.afterSymbol f.state x.2, false) :: (f.state, true) :: f) = true := by
  have hstate : f.state ∈ [7, Automaton.initial] := by
    rcases List.mem_pair.mp hf with rfl | rfl
    · exact List.mem_cons_self
    · exact List.mem_cons_of_mem _ List.mem_cons_self
  obtain ⟨hmode, htaken⟩ := taken_entries f.state hstate
  obtain ⟨hactions, hafter⟩ := htaken x hx hadmits
  refine ⟨hmode, hactions, ?_⟩
  generalize Automaton.afterSymbol f.state x.2 = q at hafter
  rcases hafter with hidle | hbusy
  · exact Footing.waits_of_idles (f := (q, false) :: _) (idle_entries q hidle)
  · obtain ⟨hitems, hinitial⟩ := busy_entries q hbusy
    rcases List.mem_pair.mp hf with rfl | rfl
    · exact hitems
    · exact hinitial

end Slot

end ImportGroups.Source
