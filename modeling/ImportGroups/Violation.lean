import ImportGroups.Grouping

/-!
Grouping violations.

A file with at most one group passes. Otherwise it may have three groups at most, none of them
mixed, and no two of one category. Of several violations the first is reported: too many groups
before a mixed group before a repeated category.
-/

namespace ImportGroups

/-- What is wrong with a file's groups. Group numbers count from zero. -/
inductive Violation where
  | tooManyGroups (count : Int)
  | invalidGrouping (group : Int) (categories : CategorySet)
  | duplicateGroupType (category : Category) (first second : Int)
  deriving DecidableEq, Repr

namespace Violation

def kind : Violation → String
  | tooManyGroups _ => "too_many_groups"
  | invalidGrouping .. => "invalid_grouping"
  | duplicateGroupType .. => "duplicate_group_type"

/-- The text shown to the user. Groups are numbered from one there. -/
def message : Violation → String
  | tooManyGroups count => "found " ++ toString count ++ " groups: too many import groups"
  | invalidGrouping group categories =>
    match categories.toList with
    | [] => "invalid grouping"
    | names => "invalid grouping: group " ++ toString (group + 1) ++ " mixes " ++
        ", ".intercalate (names.map Category.name) ++ " imports"
  | duplicateGroupType category first second =>
    "multiple import groups of the same type: groups " ++ toString (first + 1) ++ " and " ++
      toString (second + 1) ++ " are both " ++ category.name

end Violation

/-- One group per category at most: standard library, third party, own. -/
def maxGroups : Nat := 3

/-- The first group from position `i` on whose members differ in category. -/
def firstMixed? (root : String) (i : Nat) : List Group → Option Violation
  | [] => none
  | g :: gs =>
    if Group.category root g = .mixed then some (.invalidGrouping i (Group.categories root g))
    else firstMixed? root (i + 1) gs

/-- The first category that repeats an earlier one; `seen` holds the categories before position
`seen.length`. -/
def firstDuplicate? (seen : List Category) : List Category → Option Violation
  | [] => none
  | c :: cs =>
    match seen.idxOf? c with
    | some i => some (.duplicateGroupType c i seen.length)
    | none => firstDuplicate? (seen ++ [c]) cs

def validate (root : String) (gs : List Group) : Option Violation :=
  if gs.length > maxGroups then some (.tooManyGroups gs.length)
  else if gs.length ≤ 1 then none
  else (firstMixed? root 0 gs).or (firstDuplicate? [] (gs.map (Group.category root)))

/-- The verdict on a file's imports: `none` when they are grouped correctly. -/
def analyze (root : String) (records : List Record) : Option Violation :=
  validate root (groups records)

end ImportGroups
