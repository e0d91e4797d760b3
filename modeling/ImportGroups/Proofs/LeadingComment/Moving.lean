import ImportGroups.Source.Imports
import ImportGroups.Violation
import Mathlib.Data.List.SplitBy

/-!
A file that stands a line further down.

If all that a reader sees in a file stands some bytes and a line further down, then so do its imports
and the fault that makes them unknown. What the imports are grouped by are the gaps between them, so
the verdict on them stays what it was.
-/

namespace ImportGroups

namespace Source

def Spot.down (n : Nat) (p : Spot) : Spot := ⟨p.offset + n, p.line + 1⟩

def Event.onSpots (f : Spot → Spot) : Event → Event
  | .packageClause start stop => .packageClause (f start) (f stop)
  | .importDeclaration start stop => .importDeclaration (f start) (f stop)
  | .importSpec start path stop literal => .importSpec (f start) (f path) (f stop) literal
  | .otherItem start => .otherItem (f start)
  | .fault start openImport => .fault (f start) openImport

abbrev Event.down (n : Nat) : Event → Event := Event.onSpots (Spot.down n)

end Source

def Record.down (n : Nat) (r : Record) : Record := ⟨r.path, r.start + n, r.stop + n⟩

def SourceError.down : SourceError → SourceError
  | noPackageClause => noPackageClause
  | syntaxError line => syntaxError (line + 1)

/-- What is known of the imports of a file that stands `n` bytes and one line further down. -/
def importsDown (n : Nat) : Except SourceError (List Record) → Except SourceError (List Record)
  | .ok records => .ok (records.map (Record.down n))
  | .error e => .error e.down

namespace Source

variable (n : Nat) (es : List Event)

theorem foldl_min_add (xs : List Nat) (a : Nat) :
    (xs.map (· + n)).foldl min (a + n) = xs.foldl min a + n := by
  induction xs generalizing a with
  | nil => rfl
  | cons x xs ih =>
    rw [List.map_cons, List.foldl_cons, List.foldl_cons, ← ih, Nat.add_min_add_right]

theorem foldl_max_add (xs : List Nat) (a : Nat) :
    (xs.map (· + n)).foldl max (a + n) = xs.foldl max a + n := by
  induction xs generalizing a with
  | nil => rfl
  | cons x xs ih =>
    rw [List.map_cons, List.foldl_cons, List.foldl_cons, ← ih, Nat.add_max_add_right]

theorem headerLimit_down (size : Nat) :
    headerLimit (size + n) (es.map (Event.down n)) = headerLimit size es + n := by
  unfold headerLimit
  rw [← foldl_min_add, List.filterMap_map, List.map_filterMap]
  congr 1
  apply List.filterMap_congr
  intro e _
  cases e <;> rfl

theorem headerStops_down (limit : Nat) :
    headerStops (limit + n) (es.map (Event.down n)) = (headerStops limit es).map (· + n) := by
  unfold headerStops
  rw [List.filterMap_map, List.map_filterMap]
  apply List.filterMap_congr
  intro e _
  cases e with
  | importDeclaration start stop =>
    by_cases hlt : start.offset < limit
    · simp [Event.onSpots, Spot.down, hlt]
    · simp [Event.onSpots, Spot.down, hlt]
  | _ => rfl

theorem hasPackageClause_down : hasPackageClause (es.map (Event.down n)) = hasPackageClause es := by
  unfold hasPackageClause
  rw [List.any_map]
  congr 1
  funext e
  cases e <;> rfl

variable {es}

theorem headerStops_ne_nil (limit : Nat) (h : hasPackageClause es = true) :
    headerStops limit es ≠ [] := by
  obtain ⟨e, he, hclause⟩ := List.any_eq_true.mp h
  cases e with
  | packageClause start stop =>
    exact List.ne_nil_of_mem (List.mem_filterMap.mpr ⟨_, he, rfl⟩)
  | _ => cases hclause

theorem headerEnd_down (limit : Nat) (h : hasPackageClause es = true) :
    headerEnd (limit + n) (es.map (Event.down n)) = headerEnd limit es + n := by
  unfold headerEnd
  rw [headerStops_down]
  cases hstops : headerStops limit es with
  | nil => exact absurd hstops (headerStops_ne_nil limit h)
  | cons stop stops =>
    have hmax := foldl_max_add n stops (max 0 stop)
    rw [Nat.zero_max] at hmax
    rw [List.map_cons, List.foldl_cons, List.foldl_cons, Nat.zero_max, Nat.zero_max, hmax]

theorem headerFaults_down (limit : Nat) (h : hasPackageClause es = true) :
    headerFaults (limit + n) (es.map (Event.down n)) = (headerFaults limit es).map (Spot.down n) := by
  have hend := headerEnd_down n limit h
  unfold headerFaults
  rw [List.filterMap_map, List.map_filterMap, hend]
  apply List.filterMap_congr
  intro e _
  cases e with
  | fault start openImport =>
    simp only [Function.comp_apply, Event.onSpots, Spot.down, Nat.add_le_add_iff_right,
      Nat.add_lt_add_iff_right]
    split <;> rfl
  | _ => rfl

theorem headerRecords_down (limit : Nat) :
    headerRecords (limit + n) (es.map (Event.down n)) =
      (headerRecords limit es).map (Record.down n) := by
  unfold headerRecords
  rw [List.filterMap_map, List.map_filterMap]
  apply List.filterMap_congr
  intro e _
  cases e with
  | importSpec start path stop literal =>
    by_cases hlt : start.offset < limit
    · simp [Event.onSpots, Spot.down, Record.down, hlt]
    · simp [Event.onSpots, Spot.down, hlt]
  | _ => rfl

theorem foldl_first_down (spots : List Spot) (spot : Spot) :
    (spots.map (Spot.down n)).foldl (fun a b => if b.offset < a.offset then b else a) (spot.down n) =
      (spots.foldl (fun a b => if b.offset < a.offset then b else a) spot).down n := by
  induction spots generalizing spot with
  | nil => rfl
  | cons p spots ih =>
    rw [List.map_cons, List.foldl_cons, List.foldl_cons, ← ih]
    congr 1
    simp only [Spot.down, Nat.add_lt_add_iff_right]
    split <;> rfl

theorem importsOfEvents_down (size : Nat) (es : List Event) :
    importsOfEvents (size + n) (es.map (Event.down n)) = importsDown n (importsOfEvents size es) := by
  unfold importsOfEvents
  rw [headerLimit_down, hasPackageClause_down]
  cases hpackage : hasPackageClause es with
  | false => rfl
  | true =>
    dsimp only
    rw [headerFaults_down n _ hpackage, headerRecords_down]
    cases headerFaults (headerLimit size es) es with
    | nil => rfl
    | cons spot spots =>
      simp only [List.map_cons, foldl_first_down]
      rfl

end Source

theorem splitBy_loop_map {α β : Type} {r : β → β → Bool} {r' : α → α → Bool} {f : α → β}
    (hr : ∀ a b, r (f a) (f b) = r' a b) (xs : List α) (a : α) (g : List α) (gs : List (List α)) :
    List.splitBy.loop r (xs.map f) (f a) (g.map f) (gs.map (List.map f)) =
      (List.splitBy.loop r' xs a g gs).map (List.map f) := by
  induction xs generalizing a g gs with
  | nil => simp [List.splitBy.loop]
  | cons x xs ih =>
    rw [List.map_cons, List.splitBy.loop, List.splitBy.loop, hr]
    cases r' a x with
    | true => exact ih x (a :: g) gs
    | false => simpa using ih x [] ((a :: g).reverse :: gs)

theorem groups_down (n : Nat) (records : List Record) :
    groups (records.map (Record.down n)) = (groups records).map (List.map (Record.down n)) := by
  have hadjacent : ∀ a b : Record,
      decide (Adjacent (a.down n) (b.down n)) = decide (Adjacent a b) := by
    intro a b
    have hgap : (b.down n).start - (a.down n).stop = b.start - a.stop := by
      simp only [Record.down]
      omega
    rw [decide_eq_decide, Adjacent, Adjacent, hgap]
  cases records with
  | nil => rfl
  | cons r rs => exact splitBy_loop_map hadjacent rs r [] []

section Validate

variable (root : String) (n : Nat)

theorem category_down (g : Group) :
    Group.category root (g.map (Record.down n)) = Group.category root g := by
  cases g with
  | nil => rfl
  | cons r rs =>
    rw [List.map_cons, Group.category, Group.category, List.all_map]
    rfl

theorem categories_down (g : Group) :
    Group.categories root (g.map (Record.down n)) = Group.categories root g := by
  rw [Group.categories, Group.categories, List.map_map]
  rfl

theorem firstMixed?_down (i : Nat) (gs : List Group) :
    firstMixed? root i (gs.map (List.map (Record.down n))) = firstMixed? root i gs := by
  induction gs generalizing i with
  | nil => rfl
  | cons g gs ih =>
    rw [List.map_cons, firstMixed?, firstMixed?, category_down, categories_down, ih]

/-- The verdict does not depend on where in its file the first import stands. -/
theorem analyze_down (records : List Record) :
    analyze root (records.map (Record.down n)) = analyze root records := by
  have hcategory : Group.category root ∘ List.map (Record.down n) = Group.category root :=
    funext (category_down root n)
  rw [analyze, analyze, groups_down, validate, validate, List.length_map, firstMixed?_down,
    List.map_map, hcategory]

end Validate

end ImportGroups
