import ImportGroups.Proofs.Split
import ImportGroups.Walk
import Mathlib.Data.String.Basic

/-!
Well-formed trees, and trees with their entries in order.

In a well-formed tree every name stands for itself as a component of a path, and no directory has
two entries of one name. Then the order of the entries does not matter for what is found at a place.
-/

namespace ImportGroups

/-- A name that stands for itself as a component of a path. -/
def IsName (name : String) : Prop := name ≠ "" ∧ name ≠ "." ∧ '/' ∉ name.toList

instance (name : String) : Decidable (IsName name) := inferInstanceAs (Decidable (_ ∧ _ ∧ _))

theorem IsName.ofString {name : String} (h : IsName name) :
    Path.ofString name = ⟨.relative, [name]⟩ := by
  obtain ⟨hne, hdot, hslash⟩ := h
  have hstart : name.toList.takeWhile (· == '/') = [] := by
    cases hs : name.toList with
    | nil => rfl
    | cons c cs =>
      have hc : c ≠ '/' := fun hc => hslash (by simp [hs, hc])
      simp [hc]
  simp [Path.ofString, Text.segments, Text.split, Text.splitAt_of_not_mem hslash, hstart, hne, hdot,
    Anchor.ofSlashes]

theorem IsName.child {name : String} (h : IsName name) (p : Path) :
    p.child name = p.join ⟨.relative, [name]⟩ := by
  rw [Path.child, h.ofString]

namespace Node

/-- What holds of files and links, and of a directory if it holds of its entries, holds of every
node. -/
@[elab_as_elim]
theorem entriesInduction {motive : Node → Prop} (file : ∀ content, motive (.file content))
    (link : ∀ target, motive (.link target))
    (dir : ∀ entries, (∀ e ∈ entries, motive e.2) → motive (.dir entries)) (n : Node) : motive n :=
  Node.rec (motive_2 := fun entries => ∀ e ∈ entries, motive e.2) (motive_3 := fun e => motive e.2)
    file dir link (by simp) (fun _ _ he hrest => List.forall_mem_cons.mpr ⟨he, hrest⟩)
    (fun _ _ hn => hn) n

inductive WellFormed : Node → Prop where
  | file (content : Text.Bytes) : WellFormed (.file content)
  | link (target : String) : WellFormed (.link target)
  | dir {entries : List (String × Node)} (nodup : (entries.map (·.1)).Nodup)
      (names : ∀ e ∈ entries, IsName e.1) (nodes : ∀ e ∈ entries, WellFormed e.2) :
      WellFormed (.dir entries)

theorem nodeAt_append (n : Node) (names more : List String) :
    n.nodeAt (names ++ more) = (n.nodeAt names).bind (·.nodeAt more) := by
  induction names generalizing n with
  | nil => simp [nodeAt]
  | cons name names ih =>
    cases n with
    | file content => simp [nodeAt]
    | link target => simp [nodeAt]
    | dir entries =>
      simp only [List.cons_append, nodeAt]
      cases entries.lookup name with
      | none => rfl
      | some m => simp [ih]

theorem lookup_eq_some_iff {entries : List (String × Node)} (h : (entries.map (·.1)).Nodup)
    {name : String} {n : Node} : entries.lookup name = some n ↔ (name, n) ∈ entries := by
  rw [List.lookup_eq_some_iff]
  constructor
  · rintro ⟨l₁, l₂, rfl, -⟩
    simp
  · intro hmem
    obtain ⟨l₁, l₂, rfl⟩ := List.append_of_mem hmem
    refine ⟨l₁, l₂, rfl, fun p hp => ?_⟩
    rw [List.map_append, List.nodup_append] at h
    have hne := h.2.2 p.1 (List.mem_map_of_mem hp) name (by simp)
    simpa [bne_iff_ne] using hne.symm

theorem WellFormed.nodeAt {n m : Node} {names : List String} (h : n.WellFormed)
    (hm : n.nodeAt names = some m) : m.WellFormed := by
  induction names generalizing n with
  | nil =>
    cases hm
    exact h
  | cons name names ih =>
    cases h with
    | file content => simp [Node.nodeAt] at hm
    | link target => simp [Node.nodeAt] at hm
    | dir nodup _ nodes =>
      simp only [Node.nodeAt] at hm
      split at hm
      · rename_i m' hlookup
        exact ih (nodes _ ((lookup_eq_some_iff nodup).mp hlookup)) hm
      · simp at hm

theorem sortedEntries_eq (entries : List (String × Node)) :
    sorted.sortedEntries entries = entries.map fun e => (e.1, e.2.sorted) := by
  induction entries with
  | nil => rfl
  | cons e rest ih => simp [sorted.sortedEntries, ih]

def ordered (entries : List (String × Node)) : List (String × Node) :=
  (sorted.sortedEntries entries).mergeSort entryLe

theorem sorted_dir (entries : List (String × Node)) :
    (Node.dir entries).sorted = .dir (ordered entries) := by
  rw [sorted, ordered]

theorem mem_ordered {entries : List (String × Node)} {e : String × Node} :
    e ∈ ordered entries ↔ ∃ n, (e.1, n) ∈ entries ∧ e.2 = n.sorted := by
  rw [ordered, List.mem_mergeSort, sortedEntries_eq, List.mem_map]
  constructor
  · rintro ⟨⟨name, n⟩, hmem, rfl⟩
    exact ⟨n, hmem, rfl⟩
  · rintro ⟨n, hmem, he⟩
    exact ⟨(e.1, n), hmem, by rw [← he]⟩

theorem ordered_pairwise {entries : List (String × Node)} (h : (entries.map (·.1)).Nodup) :
    (ordered entries).Pairwise fun a b => a.1 < b.1 := by
  have hle : (ordered entries).Pairwise fun a b => a.1 ≤ b.1 := by
    have htrans : ∀ a b c : String × Node, entryLe a b → entryLe b c → entryLe a c := by
      simp only [entryLe, decide_eq_true_eq]
      exact fun a b c => le_trans
    have htotal : ∀ a b : String × Node, (entryLe a b || entryLe b a) = true := by
      simp only [entryLe, Bool.or_eq_true, decide_eq_true_eq]
      exact fun a b => le_total a.1 b.1
    simpa [entryLe, ordered] using List.pairwise_mergeSort htrans htotal (sorted.sortedEntries entries)
  have hne : (ordered entries).Pairwise fun a b => a.1 ≠ b.1 := by
    have hperm : ((ordered entries).map (·.1)).Perm (entries.map (·.1)) := by
      have hnames : (sorted.sortedEntries entries).map (·.1) = entries.map (·.1) := by
        simp [sortedEntries_eq]
      rw [← hnames]
      exact (List.mergeSort_perm _ _).map _
    exact List.pairwise_map.mp (hperm.nodup_iff.mpr h)
  exact (hle.and hne).imp fun hab => lt_of_le_of_ne hab.1 hab.2

end Node

namespace FileTree

def WellFormed (t : FileTree) : Prop := t.root.WellFormed

variable {t : FileTree} {place : List String} {entries : List (String × Node)}

theorem nodeAt_append (t : FileTree) (place more : List String) :
    t.nodeAt (place ++ more) = (t.nodeAt place).bind (·.nodeAt more) :=
  Node.nodeAt_append t.root place more

theorem nodeAt_entry (h : t.nodeAt place = some (.dir entries))
    (hnodup : (entries.map (·.1)).Nodup) {name : String} {n : Node} :
    t.nodeAt (place ++ [name]) = some n ↔ (name, n) ∈ entries := by
  rw [nodeAt_append, h, Option.bind_some, ← Node.lookup_eq_some_iff hnodup]
  cases hl : entries.lookup name <;> simp [Node.nodeAt, hl]

theorem leadsToDir_sorted (t : FileTree) (here : List String) (name : String) (n : Node) :
    t.leadsToDir here (name, n.sorted) = t.leadsToDir here (name, n) := by
  cases n <;> simp [Node.sorted, leadsToDir]

end FileTree

end ImportGroups
