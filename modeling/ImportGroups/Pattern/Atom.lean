/-!
Atoms of path patterns and what they match.

A pattern that is not special is a list of atoms, matched from the start of a path. The last atom
asks for the end of a name, so what follows it in the path is free.
-/

namespace ImportGroups.Pattern

inductive ClassItem where
  | single (c : Char)
  | range (lo hi : Char)
  deriving DecidableEq, Repr

namespace ClassItem

def contains (c : Char) : ClassItem → Bool
  | single d => c == d
  | range lo hi => lo ≤ c && c ≤ hi

def isValid : ClassItem → Bool
  | single _ => true
  | range lo hi => lo ≤ hi

/-- The members written between brackets. A dash makes a range of its two neighbours; the first and
the last one stand for themselves. -/
def ofChars : List Char → List ClassItem
  | lo :: '-' :: hi :: rest => range lo hi :: ofChars rest
  | c :: rest => single c :: ofChars rest
  | [] => []

end ClassItem

structure CharClass where
  negated : Bool
  items : List ClassItem
  deriving DecidableEq, Repr

def CharClass.contains (k : CharClass) (c : Char) : Bool :=
  k.items.any (·.contains c) != k.negated

inductive Atom where
  /-- This character. -/
  | char (c : Char)
  /-- Any character of a name. -/
  | notSlash
  /-- Any number of characters of a name. -/
  | run
  /-- A character of the class. -/
  | oneOf (k : CharClass)
  /-- Nothing, or directories from the start of the path. -/
  | leadingDirs
  /-- Nothing, or a slash and what is below it. -/
  | innerDirs
  /-- The end of a name. -/
  | boundary
  deriving DecidableEq, Repr

/-- `k` holds of the text after some number of characters that satisfy `p`. -/
def afterRun (p : Char → Bool) (k : List Char → Bool) : List Char → Bool
  | [] => k []
  | c :: cs => k (c :: cs) || (p c && afterRun p k cs)

/-- The text is over, a line feed at the very end apart. -/
def atEnd (cs : List Char) : Bool := cs == [] || cs == ['\n']

def matchAtoms : List Atom → List Char → Bool
  | [], _ => true
  | .char c :: as, cs =>
    match cs with
    | d :: ds => d == c && matchAtoms as ds
    | [] => false
  | .notSlash :: as, cs =>
    match cs with
    | d :: ds => d != '/' && matchAtoms as ds
    | [] => false
  | .oneOf k :: as, cs =>
    match cs with
    | d :: ds => k.contains d && matchAtoms as ds
    | [] => false
  | .run :: as, cs => afterRun (· != '/') (matchAtoms as) cs
  | .leadingDirs :: as, cs =>
    matchAtoms as cs ||
      match cs with
      | d :: ds => d != '\n' && afterRun (· != '\n')
          (fun es => es.head? == some '/' && matchAtoms as es.tail) ds
      | [] => false
  | .innerDirs :: as, cs =>
    matchAtoms as cs ||
      match cs with
      | '/' :: d :: ds => d != '\n' && afterRun (· != '\n') (matchAtoms as) ds
      | _ => false
  | .boundary :: as, cs =>
    (atEnd cs || cs.head? == some '/') && matchAtoms as (cs.drop 1)

end ImportGroups.Pattern
