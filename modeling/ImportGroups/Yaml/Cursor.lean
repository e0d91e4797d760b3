/-!
A place in a YAML text.

A line feed starts a new line. U+0085, U+2028 and U+2029 break a line, too, but what follows them
still stands in the same line. A byte order mark takes no column.
-/

namespace ImportGroups.Yaml

structure Cursor where
  chars : List Char
  index : Nat := 0
  line : Nat := 0
  column : Nat := 0
  deriving Repr

def isBreak (c : Char) : Bool :=
  c == '\n' || c.toNat == 0x85 || c.toNat == 0x2028 || c.toNat == 0x2029

def isLineStop (c : Char) : Bool := c == '\n' || c.toNat == 0x85

/-- White space inside a line, or the end of the line. -/
def isGap (c : Char) : Bool := c == ' ' || c == '\t' || isLineStop c

/-- The text is over here, or `p` holds of the character. -/
def endOr (p : Char → Bool) : Option Char → Bool
  | none => true
  | some c => p c

namespace Cursor

def peek? (c : Cursor) : Option Char := c.chars.head?

def peekAt? (c : Cursor) (k : Nat) : Option Char := (c.chars.drop k).head?

def next (c : Cursor) : Cursor :=
  match c.chars with
  | [] => c
  | ch :: rest =>
    if ch == '\n' then ⟨rest, c.index + 1, c.line + 1, 0⟩
    else ⟨rest, c.index + 1, c.line, if ch.toNat == 0xFEFF then c.column else c.column + 1⟩

def advance : Nat → Cursor → Cursor
  | 0, c => c
  | n + 1, c => advance n c.next

/-- The longest run of characters that satisfy `p`, and the place after it. -/
def span (p : Char → Bool) (c : Cursor) : List Char × Cursor :=
  let run := c.chars.takeWhile p
  (run, c.advance run.length)

def skip (p : Char → Bool) (c : Cursor) : Cursor := (c.span p).2

def lineBreak? (c : Cursor) : Option (Char × Cursor) :=
  match c.peek? with
  | some ch => if isLineStop ch then some ('\n', c.next) else if isBreak ch then some (ch, c.next)
    else none
  | none => none

/-- A document marker made of three times `ch` stands here. -/
def atMarker (ch : Char) (c : Cursor) : Bool :=
  c.chars.take 3 == [ch, ch, ch] && endOr isGap (c.peekAt? 3)

def atSeparator (c : Cursor) : Bool := c.atMarker '-' || c.atMarker '.'

end Cursor

end ImportGroups.Yaml
