/-!
Sets of code points given as tables of ranges.
-/

namespace ImportGroups.Text

/-- Some range of the table, ends included, holds `n`. -/
def inRanges (ranges : List (Nat × Nat)) (n : Nat) : Bool :=
  ranges.any fun (lo, hi) => lo ≤ n && n ≤ hi

end ImportGroups.Text
