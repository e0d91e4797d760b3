import ImportGroups.Yaml.Cursor
import ImportGroups.Yaml.LoadError
import ImportGroups.Yaml.Token

/-!
The text of scalars: plain, quoted and block.

Lines are folded: one line break becomes a space, and of several the first is dropped. Every reader
takes a bound on its steps, which the length of the whole text is.
-/

namespace ImportGroups.Yaml

/-- What a break and the empty lines after it contribute to a scalar: one line break is a space,
each further one counts. -/
def foldBreaks (first : Char) (breaks : List Char) : List Char :=
  if first != '\n' then first :: breaks else if breaks.isEmpty then [' '] else breaks

/-- Where a plain scalar stands: inside a flow collection or not, and the column that its lines need
at least. -/
structure PlainPlace where
  inFlow : Bool
  minColumn : Nat
  version : Version

/-- How many characters of a plain scalar stand here, up to white space or the character that ends
it. -/
def plainLength (p : PlainPlace) : List Char → Nat
  | [] => 0
  | c :: cs =>
    if (c == ':' && !endOr isGap cs.head?) || (c == '?' && p.version != .v11) then
      plainLength p cs + 1
    else if isGap c || (!p.inFlow && c == ':') ||
        (p.inFlow && ",:?[]\x7b\x7d".toList.contains c) then 0
    else plainLength p cs + 1

/-- The breaks of the empty lines from here on; `none` at a document separator. -/
def plainBreaks : Nat → Cursor → Option (List Char × Cursor)
  | 0, c => some ([], c)
  | fuel + 1, c =>
    match c.lineBreak? with
    | some (b, c) =>
      if c.atSeparator then none else (plainBreaks fuel c).map fun (bs, c) => (b :: bs, c)
    | none => if c.peek? == some ' ' then plainBreaks fuel c.next else some ([], c)

/-- What stands between two words of a plain scalar, empty when it ends here, and whether a line
ended. -/
def plainSpaces (fuel : Nat) (c : Cursor) : List Char × Bool × Cursor :=
  let (blanks, c) := c.span (· == ' ')
  match c.lineBreak? with
  | some (b, c) =>
    if c.atSeparator then ([], true, c)
    else
      match plainBreaks fuel c with
      | none => ([], true, c.skip fun ch => ch == ' ' || isBreak ch)
      | some (breaks, c) => (foldBreaks b breaks, true, c)
  | none => (blanks, false, c)

/-- The rest of a plain scalar, with what stood before it, whether a line ended after it, and the
place after it. `text` is what was read so far, the last character first. -/
def plainText (p : PlainPlace) : Nat → Cursor → List Char → List Char → Bool →
    List Char × Bool × Cursor
  | 0, c, text, _, ended => (text.reverse, ended, c)
  | fuel + 1, c, text, spaces, ended =>
    let n := if c.peek? == some '#' then 0 else plainLength p c.chars
    if n == 0 then (text.reverse, ended, c)
    else
      let text := (c.chars.take n).reverse ++ spaces.reverse ++ text
      let (spaces, ended, c) := plainSpaces fuel (c.advance n)
      if spaces.isEmpty || c.peek? == some '#' || (!p.inFlow && c.column < p.minColumn) then
        (text.reverse, ended, c)
      else plainText p fuel c text spaces ended

/-- The empty lines inside a quoted scalar; a document separator may not stand there. -/
def quotedBreaks : Nat → Cursor → Except LoadError (List Char × Cursor)
  | 0, c => .ok ([], c)
  | fuel + 1, c =>
    if c.atSeparator then .error .invalid
    else
      let c := c.skip fun ch => ch == ' ' || ch == '\t'
      match c.lineBreak? with
      | some (b, c) => (quotedBreaks fuel c).map fun (bs, c) => (b :: bs, c)
      | none => .ok ([], c)

def escapes : List (Char × Nat) :=
  [('0', 0), ('a', 7), ('b', 8), ('t', 9), ('\t', 9), ('n', 0x0A), ('v', 0x0B), ('f', 0x0C),
   ('r', 0x0D), ('e', 0x1B), (' ', 0x20), ('"', 0x22), ('/', 0x2F), ('\\', 0x5C), ('N', 0x85),
   ('_', 0xA0), ('L', 0x2028), ('P', 0x2029)]

def hexValue? (c : Char) : Option Nat :=
  if '0' ≤ c && c ≤ '9' then some (c.toNat - '0'.toNat)
  else if 'a' ≤ c && c ≤ 'f' then some (c.toNat - 'a'.toNat + 10)
  else if 'A' ≤ c && c ≤ 'F' then some (c.toNat - 'A'.toNat + 10)
  else none

def hexNumber? (cs : List Char) : Option Nat :=
  (cs.mapM hexValue?).map fun ds => ds.foldl (fun n d => n * 16 + d) 0

/-- How many hexadecimal digits follow the letter of an escape. -/
def escapeWidth? : Char → Option Nat
  | 'x' => some 2
  | 'u' => some 4
  | 'U' => some 8
  | _ => none

def codePoint (n : Nat) : Except LoadError Char :=
  if 0x7FFFFFFF < n then .error .overflow
  else if 0x10FFFF < n then .error .malformedNumber
  else if 0xD800 ≤ n && n ≤ 0xDFFF then .error .halfPair
  else .ok (Char.ofNat n)

/-- The characters that an escape stands for, and the place after it; the backslash is behind us. -/
def escapeAt (fuel : Nat) (c : Cursor) : Except LoadError (List Char × Cursor) :=
  match c.peek? with
  | none => .error .invalid
  | some ch =>
    match escapes.lookup ch, escapeWidth? ch with
    | some n, _ => .ok ([Char.ofNat n], c.next)
    | none, some width =>
      let digits := (c.chars.drop 1).take width
      match if digits.length == width then hexNumber? digits else none with
      | some n => (codePoint n).map fun ch => ([ch], c.advance (width + 1))
      | none => .error .invalid
    | none, none =>
      match c.lineBreak? with
      | some (_, c) => quotedBreaks fuel c
      | none => .error .invalid

def quotedSpaces (fuel : Nat) (c : Cursor) : Except LoadError (List Char × Cursor) :=
  let (blanks, c) := c.span fun ch => ch == ' ' || ch == '\t'
  match c.lineBreak? with
  | some (b, c) => (quotedBreaks fuel c).map fun (breaks, c) => (foldBreaks b breaks, c)
  | none => if c.chars.isEmpty then .error .invalid else .ok (blanks, c)

/-- The rest of a quoted scalar and the place after its closing quote. `text` is what was read so
far, the last character first. -/
def quotedText (quote : Char) : Nat → Cursor → List Char → Except LoadError (List Char × Cursor)
  | 0, _, _ => .error .invalid
  | fuel + 1, c, text =>
    match c.peek? with
    | none => .error .invalid
    | some ch =>
      if ch == quote then
        if quote == '\'' && c.peekAt? 1 == some '\'' then
          quotedText quote fuel (c.advance 2) ('\'' :: text)
        else .ok (text.reverse, c.next)
      else if ch == '\\' && quote == '"' then
        match escapeAt fuel c.next with
        | .ok (piece, c) => quotedText quote fuel c (piece.reverse ++ text)
        | .error e => .error e
      else if ch == ' ' || ch == '\t' || isBreak ch then
        match quotedSpaces fuel c with
        | .ok (piece, c) => quotedText quote fuel c (piece.reverse ++ text)
        | .error e => .error e
      else quotedText quote fuel c.next (ch :: text)

/-- What a block scalar does with the line breaks at its end. -/
inductive Chomping where
  | clip
  | strip
  | keep
  deriving DecidableEq, Repr

def chomping? : Char → Option Chomping
  | '+' => some .keep
  | '-' => some .strip
  | _ => none

def increment? (c : Char) : Option Nat :=
  if '1' ≤ c && c ≤ '9' then some (c.toNat - '0'.toNat) else none

/-- Chomping and indentation after the first character of a block scalar, in either order. -/
def blockMarks (c : Cursor) : Chomping × Option Nat × Cursor :=
  match c.peek? with
  | none => (.clip, none, c)
  | some a =>
    match chomping? a with
    | some k =>
      match c.peekAt? 1 >>= increment? with
      | some n => (k, some n, c.advance 2)
      | none => (k, none, c.next)
    | none =>
      match increment? a with
      | some n =>
        match c.peekAt? 1 >>= chomping? with
        | some k => (k, some n, c.advance 2)
        | none => (.clip, some n, c.next)
      | none => (.clip, none, c)

def blockHeader (c : Cursor) : Option (Chomping × Option Nat × Cursor) := do
  let (chomp, incr, c) := blockMarks c
  guard (endOr (fun ch => ch == ' ' || isBreak ch) c.peek?)
  let c := c.skip (· == ' ')
  let c := if c.peek? == some '#' then c.skip (!isLineStop ·) else c
  guard (endOr isLineStop c.peek?)
  return (chomp, incr, if c.chars.isEmpty then c else c.next)

/-- The empty lines before a block scalar's first line, the widest indentation among them and that
line, and the indentation of the first of them. -/
def leadingLines : Nat → Cursor → Nat → Option Nat → List Char × Nat × Option Nat × Cursor
  | 0, c, widest, first => ([], widest, first, c)
  | fuel + 1, c, widest, first =>
    match c.lineBreak? with
    | some (b, c') =>
      let (bs, rest) := leadingLines fuel c' widest (first.or (some c.column))
      (b :: bs, rest)
    | none =>
      if c.peek? == some ' ' then leadingLines fuel c.next (max widest c.next.column) first
      else ([], widest, first, c)

def skipIndent (indent : Nat) (c : Cursor) : Cursor :=
  c.advance (min ((c.chars.takeWhile (· == ' ')).length) (indent - c.column))

/-- The empty lines inside a block scalar, up to the indentation of the next line. -/
def blockBreaks (indent : Nat) : Nat → Cursor → List Char × Cursor
  | 0, c => ([], c)
  | fuel + 1, c =>
    let c := skipIndent indent c
    match c.lineBreak? with
    | some (b, c) =>
      let (bs, c) := blockBreaks indent fuel c
      (b :: bs, c)
    | none => ([], c)

structure BlockStyle where
  folded : Bool
  chomping : Chomping
  indent : Nat
  /-- Content may start at the left margin, where document separators end it. -/
  atMargin : Bool

def leadsWithText (c : Cursor) : Bool := c.peek?.any fun ch => ch != ' ' && ch != '\t'

def lineEnd (c : Cursor) : List Char × Cursor :=
  match c.lineBreak? with
  | some (b, c) => ([b], c)
  | none => ([], c)

/-- The lines of a block scalar; `breaks` are the empty lines before this one, and `text` is what
was read so far, the last character first. -/
def blockText (style : BlockStyle) : Nat → Cursor → List Char → List Char → List Char × Cursor
  | 0, c, _, text => (text.reverse, c)
  | fuel + 1, c, breaks, text =>
    let leads := leadsWithText c
    let (line, c) := c.span (!isLineStop ·)
    let text := line.reverse ++ breaks.reverse ++ text
    let (ending, c) := lineEnd c
    let (breaks, c) := blockBreaks style.indent fuel c
    let goesOn := c.column == style.indent && !c.chars.isEmpty &&
      !(style.atMargin && c.column == 0 && c.atSeparator)
    if goesOn then
      let between :=
        if style.folded && ending == ['\n'] && leads && leadsWithText c then
          if breaks.isEmpty then [' '] else []
        else ending
      blockText style fuel c breaks (between ++ text)
    else
      let tail :=
        match style.chomping with
        | .keep => ending ++ breaks
        | .clip => ending
        | .strip => []
      (text.reverse ++ tail, c)

end ImportGroups.Yaml
