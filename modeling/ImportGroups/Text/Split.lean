/-!
Splitting a text at a character and joining it again.
-/

namespace ImportGroups.Text

/-- The pieces between the occurrences of `c`; there is always at least one. -/
def splitAt (c : Char) : List Char → List (List Char)
  | [] => [[]]
  | d :: ds =>
    if d == c then [] :: splitAt c ds
    else
      match splitAt c ds with
      | [] => [[d]]
      | p :: ps => (d :: p) :: ps

def split (c : Char) (s : String) : List String :=
  (splitAt c s.toList).map String.ofList

def segments (c : Char) (s : String) : List String :=
  (split c s).filter (· != "")

end ImportGroups.Text
