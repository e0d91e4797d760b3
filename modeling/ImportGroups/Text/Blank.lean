/-!
White space and trimming.

White space is every character with the Unicode property, and the four information separators
U+001C to U+001F.
-/

namespace ImportGroups.Text

def isBlank (c : Char) : Bool :=
  let n := c.toNat
  (0x09 ≤ n && n ≤ 0x0D) || (0x1C ≤ n && n ≤ 0x20) || n == 0x85 || n == 0xA0 || n == 0x1680 ||
    (0x2000 ≤ n && n ≤ 0x200A) || n == 0x2028 || n == 0x2029 || n == 0x202F || n == 0x205F ||
    n == 0x3000

/-- Drops the longest run at the end whose members satisfy `p`. -/
def dropEndWhile (p : α → Bool) (xs : List α) : List α :=
  (xs.reverse.dropWhile p).reverse

/-- Drops the runs at both ends whose members satisfy `p`. -/
def trimWhile (p : α → Bool) (xs : List α) : List α :=
  dropEndWhile p (xs.dropWhile p)

/-- Without white space at either end. -/
def trimBlank (s : String) : String := .ofList (trimWhile isBlank s.toList)

def trimBlankEnd (s : String) : String := .ofList (dropEndWhile isBlank s.toList)

/-- Without the character `c` at either end. -/
def trimChar (c : Char) (s : String) : String := .ofList (trimWhile (· == c) s.toList)

def isAllBlank (s : String) : Bool := s.toList.all isBlank

end ImportGroups.Text
