import ImportGroups.Proofs.GapPartition
import ImportGroups.Proofs.Header.Imports

/-!
Writing a block of imports and reading it back.

A file with one block has one record for each spec of the block, with the path that was written and
the place where it was written, and the groups part where white space of more than two bytes was
written between two specs.
-/

namespace ImportGroups

open Text (Bytes)
open Source (lineFeed)

namespace Header

def Block.specs (b : Block) : List Spec := b.first :: b.more.map (·.2)

/-- The white space between one spec of a block and the next. -/
def Block.separators (b : Block) : List Bytes := b.more.map (·.1.bytes)

theorem Block.length_specs (b : Block) : b.specs.length = b.separators.length + 1 := by
  simp [specs, separators]

/-- What stands before the first spec of a file with a block. -/
def opening (p : Name) (b : Block) : Bytes :=
  packageBytes ++ (spaceByte :: (p.bytes ++ (lineFeed :: (importBytes ++
    (spaceByte :: leftParenByte :: b.lead.bytes)))))

def joined (pairs : List (Spec × Bytes)) : Bytes := pairs.flatMap fun (s, w) => s.bytes ++ w

def file (p : Name) (b : Block) : Bytes :=
  opening p b ++ (joined (b.specs.zip (b.separators ++ [b.tail.bytes])) ++ [rightParenByte, lineFeed])

def before (p : Name) (b : Block) (i : Nat) : Bytes :=
  opening p b ++ joined ((b.specs.zip b.separators).take i)

theorem blank_nil : ∀ b ∈ ([] : Bytes), Source.isBlankByte b = true := List.forall_mem_nil _

def ofBlock (p : Name) (b : Block) : Header where
  lead := ⟨[], blank_nil⟩
  gap := oneSpace
  name := p
  stop := oneLineFeed
  decls := [(.block oneSpace.toBlanks b, oneLineFeed)]

theorem joined_specs (s : Spec) (more : List (LineBreak × Spec)) (tail : Bytes) :
    joined ((s :: more.map (·.2)).zip (more.map (·.1.bytes) ++ [tail])) =
      s.bytes ++ (Block.moreBytes more ++ tail) := by
  induction more generalizing s with
  | nil => simp [joined, Block.moreBytes]
  | cons x more ih =>
    have hmore := ih x.2
    simp only [joined, Block.moreBytes] at hmore ⊢
    simp [hmore]

theorem bytes_ofBlock (p : Name) (b : Block) : (ofBlock p b).bytes = file p b := by
  have hspecs : joined (b.specs.zip (b.separators ++ [b.tail.bytes])) =
      b.first.bytes ++ (Block.moreBytes b.more ++ b.tail.bytes) := joined_specs _ _ _
  rw [file, hspecs]
  simp [Header.bytes, Header.clauseBytes, ofBlock, declBytes, Declaration.bytes, Declaration.inside,
    Block.bytes, opening, oneSpace, oneLineFeed]

theorem getElem?_recordsFrom (offset : Nat) (s : Spec) (more : List (LineBreak × Spec)) (i : Nat) :
    (Block.recordsFrom offset s more)[i]? = (s :: more.map (·.2))[i]?.map fun t =>
      t.record (offset +
        (joined (((s :: more.map (·.2)).zip (more.map (·.1.bytes))).take i)).length) := by
  induction more generalizing offset s i with
  | nil => cases i <;> simp [Block.recordsFrom, joined]
  | cons x more ih =>
    obtain ⟨w, s'⟩ := x
    cases i with
    | zero => simp [Block.recordsFrom, joined]
    | succ i =>
      simp [Block.recordsFrom, ih, joined, Nat.add_assoc]

theorem length_recordsFrom (offset : Nat) (s : Spec) (more : List (LineBreak × Spec)) :
    (Block.recordsFrom offset s more).length = more.length + 1 := by
  induction more generalizing offset s with
  | nil => rfl
  | cons x more ih => simp [Block.recordsFrom, ih]

theorem records_ofBlock (p : Name) (b : Block) :
    (ofBlock p b).records = Block.recordsFrom (opening p b).length b.first b.more := by
  simp [Header.records, declRecords, Declaration.records, Block.records, ofBlock, opening,
    Header.clauseBytes, oneSpace, oneLineFeed, Nat.add_comm, Nat.add_left_comm]

theorem joined_append (a b : List (Spec × Bytes)) : joined (a ++ b) = joined a ++ joined b := by
  simp [joined]

theorem joined_split {pairs : List (Spec × Bytes)} {i : Nat} {s : Spec} {w : Bytes}
    (h : pairs[i]? = some (s, w)) :
    joined pairs = joined (pairs.take i) ++ (s.bytes ++ (w ++ joined (pairs.drop (i + 1)))) := by
  obtain ⟨hi, hget⟩ := List.getElem?_eq_some_iff.mp h
  have hdrop : pairs.drop i = (s, w) :: pairs.drop (i + 1) := by
    rw [List.drop_eq_getElem_cons hi, hget]
  have hpairs : joined pairs = joined (pairs.take i) ++ joined (pairs.drop i) := by
    rw [← joined_append, List.take_append_drop]
  rw [hpairs, hdrop]
  simp [joined]

theorem before_append_isPrefix (p : Name) (b : Block) {i : Nat} {s : Spec} (h : b.specs[i]? = some s) :
    (before p b i ++ s.bytes).IsPrefix (file p b) := by
  have hi : i < b.separators.length + 1 := by
    rw [← b.length_specs]
    exact (List.getElem?_eq_some_iff.mp h).1
  obtain ⟨w, hw⟩ : ∃ w, (b.separators ++ [b.tail.bytes])[i]? = some w :=
    ⟨_, List.getElem?_eq_getElem (by simpa using hi)⟩
  have hpair : (b.specs.zip (b.separators ++ [b.tail.bytes]))[i]? = some (s, w) := by
    rw [List.getElem?_zip_eq_some]
    exact ⟨h, hw⟩
  have htake : (b.specs.zip (b.separators ++ [b.tail.bytes])).take i =
      (b.specs.zip b.separators).take i := by
    simp only [List.zip, List.take_zipWith]
    rw [List.take_append_of_le_length (by omega)]
  rw [file, joined_split hpair, htake, before, List.append_assoc, List.append_assoc,
    List.prefix_append_right_inj, List.prefix_append_right_inj, List.append_assoc]
  exact List.prefix_append _ _

theorem before_succ (p : Name) (b : Block) {i : Nat} {s : Spec} {w : Bytes}
    (hs : b.specs[i]? = some s) (hw : b.separators[i]? = some w) :
    before p b (i + 1) = before p b i ++ (s.bytes ++ w) := by
  have hpair : (b.specs.zip b.separators)[i]? = some (s, w) := by
    rw [List.getElem?_zip_eq_some]
    exact ⟨hs, hw⟩
  rw [before, before, List.take_add_one, hpair, joined_append]
  simp [joined]

theorem getElem?_records_ofBlock (p : Name) (b : Block) {i : Nat} {s : Spec}
    (h : b.specs[i]? = some s) :
    (ofBlock p b).records[i]? =
      some ⟨s.path.text, (before p b i).length, (before p b i ++ s.bytes).length⟩ := by
  have h' : (b.first :: b.more.map (·.2))[i]? = some s := h
  rw [records_ofBlock, getElem?_recordsFrom, h', Option.map_some, Spec.record]
  simp [before, Block.specs, Block.separators, Int.add_assoc]

end Header

open Header in
/-- A file with a block of imports is read back as it was written. -/
theorem imports_of_file (p : Name) (b : Block) :
    ∃ rs, sourceImports (file p b) = .ok rs ∧ rs.length = b.specs.length ∧
      (∀ i s, b.specs[i]? = some s →
        (before p b i ++ s.bytes).IsPrefix (file p b) ∧
        rs[i]? = some ⟨s.path.text, (before p b i).length, (before p b i ++ s.bytes).length⟩) ∧
      ∀ i w, b.separators[i]? = some w → (SplitsAt (groups rs) (i + 1) ↔ 2 < w.length) := by
  refine ⟨(ofBlock p b).records, ?_, ?_, ?_, ?_⟩
  · rw [← bytes_ofBlock, sourceImports_header]
  · rw [records_ofBlock, length_recordsFrom]
    simp [Block.specs]
  · exact fun i s hs => ⟨before_append_isPrefix p b hs, getElem?_records_ofBlock p b hs⟩
  · intro i w hw
    have hi : i < b.separators.length := (List.getElem?_eq_some_iff.mp hw).1
    have hlength := b.length_specs
    obtain ⟨s, hs⟩ : ∃ s, b.specs[i]? = some s := ⟨_, List.getElem?_eq_getElem (by omega)⟩
    obtain ⟨s', hs'⟩ : ∃ s, b.specs[i + 1]? = some s := ⟨_, List.getElem?_eq_getElem (by omega)⟩
    rw [splitsAt_groups_iff, wideGap_succ_iff (getElem?_records_ofBlock p b hs)
      (getElem?_records_ofBlock p b hs'), before_succ p b hs hw]
    simp only [groupGap, List.length_append]
    omega

end ImportGroups
