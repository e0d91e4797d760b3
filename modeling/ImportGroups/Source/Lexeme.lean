import ImportGroups.Source.Mark
import ImportGroups.Text.Identifier

/-!
Lexical forms of Go.

Each function gives the number of bytes that a form takes at the head of a text, zero where the form
does not stand there.
-/

namespace ImportGroups.Source

open Text (Bytes)

def quoteByte : UInt8 := 0x22
def rawQuoteByte : UInt8 := 0x60
def backslashByte : UInt8 := 0x5C

def isDigitByte (b : UInt8) : Bool := 0x30 ≤ b && b ≤ 0x39
def isOctalByte (b : UInt8) : Bool := 0x30 ≤ b && b ≤ 0x37
def isBinaryByte (b : UInt8) : Bool := 0x30 ≤ b && b ≤ 0x31

def isHexByte (b : UInt8) : Bool :=
  isDigitByte b || (0x41 ≤ b && b ≤ 0x46) || (0x61 ≤ b && b ≤ 0x66)

/-- Tab, line feed, vertical tab, form feed, carriage return and space. -/
def isBlankByte (b : UInt8) : Bool := (0x09 ≤ b && b ≤ 0x0D) || b == 0x20

/-- How many bytes the character at the head takes; a byte that starts none counts as one. -/
def charLength (bs : Bytes) : Nat :=
  match bs with
  | [] => 0
  | b :: rest => (Text.utf8Piece b rest).char?.elim 1 Char.utf8Size

/-- The length of a comment from behind its opening `/*`; `none` if it is left open. -/
def blockCommentLength? : Nat → Bytes → Option Nat
  | _, [] => none
  | n, b :: bs =>
    if b == 0 then none
    else if b == 0x2A && bs.head? == some 0x2F then some (n + 2)
    else blockCommentLength? (n + 1) bs

def commentLength : Bytes → Nat
  | 0x2F :: 0x2F :: bs => 2 + (bs.takeWhile fun b => b != lineFeed && b != 0).length
  | 0x2F :: 0x2A :: bs => (blockCommentLength? 2 bs).getD 0
  | _ => 0

def wordPartLength : Nat → Nat → Bytes → Nat
  | _, n, [] => n
  | k + 1, n, _ :: bs => wordPartLength k (n + 1) bs
  | 0, n, b :: bs =>
    match (Text.utf8Piece b bs).char?.filter Text.isIdentifierPart with
    | some c => wordPartLength (c.utf8Size - 1) (n + 1) bs
    | none => n

/-- The length of the identifier or keyword at the head, zero if there is none. -/
def wordLength : Bytes → Nat
  | [] => 0
  | b :: bs =>
    if (Text.utf8Piece b bs).char?.any Text.isIdentifierStart then wordPartLength 0 0 (b :: bs)
    else 0

/-- The length of a run of digits in which single underscores may stand between two digits. -/
def digitsLength (digit : UInt8 → Bool) : Bytes → Nat
  | [] => 0
  | [b] => if digit b then 1 else 0
  | b :: c :: bs =>
    if !digit b then 0
    else if c == 0x5F && bs.head?.any digit then 2 + digitsLength digit bs
    else 1 + digitsLength digit (c :: bs)

def exponentLength (letter : UInt8 → Bool) : Bytes → Nat
  | b :: bs =>
    if !letter b then 0
    else
      let (sign, digits) := match bs with
        | c :: cs => if c == 0x2B || c == 0x2D then (1, cs) else (0, bs)
        | [] => (0, bs)
      match digitsLength isDigitByte digits with
      | 0 => 0
      | n => 1 + sign + n
  | [] => 0

/-- The digits behind a base letter, an underscore before them included. -/
def basedLength (digit : UInt8 → Bool) (bs : Bytes) : Nat :=
  match bs with
  | 0x5F :: rest =>
    match digitsLength digit rest with
    | 0 => 0
    | n => n + 1
  | _ => digitsLength digit bs

def isHexMark (b : UInt8) : Bool := b == 0x78 || b == 0x58
def isExponentMark (b : UInt8) : Bool := b == 0x65 || b == 0x45
def isHexExponentMark (b : UInt8) : Bool := b == 0x70 || b == 0x50

def integerLengths : Bytes → List Nat
  | 0x30 :: b :: bs =>
    let based := fun digit =>
      match basedLength digit bs with
      | 0 => []
      | n => [2 + n]
    let octal := basedLength isOctalByte (b :: bs)
    [1 + octal] ++
      (if isHexMark b then based isHexByte
      else if b == 0x62 || b == 0x42 then based isBinaryByte
      else if b == 0x6F || b == 0x4F then based isOctalByte
      else [])
  | [0x30] => [1]
  | bs =>
    match digitsLength isDigitByte bs with
    | 0 => []
    | n => [n]

def fractionLength (digit : UInt8 → Bool) : Bytes → Nat
  | 0x2E :: bs => 1 + digitsLength digit bs
  | _ => 0

def floatLengths (bs : Bytes) : List Nat :=
  let whole := digitsLength isDigitByte bs
  let fraction := fractionLength isDigitByte (bs.drop whole)
  let digits := whole + fraction
  let exponent := exponentLength isExponentMark (bs.drop digits)
  let decimal :=
    if whole == 0 then (if fraction ≥ 2 then [digits + exponent] else [])
    else if fraction == 0 && exponent == 0 then []
    else [digits + exponent]
  let hex :=
    match bs with
    | 0x30 :: x :: rest =>
      if isHexMark x then
        let score := if rest.head? == some 0x5F then 1 else 0
        let rest := rest.drop score
        let whole := digitsLength isHexByte rest
        let fraction := fractionLength isHexByte (rest.drop whole)
        let exponent := exponentLength isHexExponentMark (rest.drop (whole + fraction))
        if exponent == 0 || whole + fraction ≤ (if whole == 0 then 1 else 0) then []
        else [2 + score + whole + fraction + exponent]
      else []
    | _ => []
  decimal ++ hex

def longest : List Nat → Nat
  | [] => 0
  | n :: ns => max n (longest ns)

def integerLength (bs : Bytes) : Nat := longest (integerLengths bs)

/-- The length of the floating-point number at the head, zero if there is none. -/
def floatLength (bs : Bytes) : Nat := longest (floatLengths bs)

/-- The length of the imaginary number at the head: decimal digits or any other number, and `i`. -/
def imaginaryLength (bs : Bytes) : Nat :=
  let lengths := digitsLength isDigitByte bs :: (integerLengths bs ++ floatLengths bs)
  longest ((lengths.filter fun n => n != 0 && (bs.drop n).head? == some 0x69).map (· + 1))

/-- The length of the longest escape at the head, from its backslash on; zero if there is none. -/
def escapeLength : Bytes → Nat
  | [] => 0
  | _ :: bs =>
    let count := fun p => (bs.takeWhile p).length
    let digits := count isDigitByte
    match bs with
    | 0x78 :: hex =>
      let digits := (hex.takeWhile isHexByte).length
      if 2 ≤ digits then 2 + digits else 0
    | 0x75 :: hex => if 4 ≤ (hex.takeWhile isHexByte).length then 6 else 0
    | 0x55 :: hex => if 8 ≤ (hex.takeWhile isHexByte).length then 10 else 0
    | 0 :: _ => 0
    | [] => 0
    | _ => if 2 ≤ digits then 1 + min 3 digits else 1 + charLength bs

/-- How many bytes could belong to an escape at the head, where none is complete. -/
def escapeReach : Bytes → Nat
  | [] => 0
  | _ :: 0x78 :: hex => 2 + min 1 (hex.takeWhile isHexByte).length
  | _ :: 0x75 :: hex => 2 + min 3 (hex.takeWhile isHexByte).length
  | _ :: 0x55 :: hex => 2 + min 7 (hex.takeWhile isHexByte).length
  | _ => 1

/-- The length of a piece of a quoted string: up to a quote, a backslash, the end of the line or a
zero byte. -/
def contentLength (bs : Bytes) : Nat :=
  (bs.takeWhile fun b => b != quoteByte && b != backslashByte && b != lineFeed && b != 0).length

/-- The length of what a raw string holds: up to a backquote or a zero byte. -/
def rawContentLength (bs : Bytes) : Nat :=
  (bs.takeWhile fun b => b != rawQuoteByte && b != 0).length

/-- The byte makes an escape of one character behind a backslash, as `n` does. -/
def isRuneEscape (b : UInt8) : Bool :=
  [0x61, 0x62, 0x66, 0x6E, 0x72, 0x74, 0x76, 0x5C, 0x27, 0x22].contains b

/-- How many bytes behind the opening quote of a rune literal could be its character, and whether
they are one. -/
def runeBody : Bytes → Nat × Bool
  | 0x5C :: 0x78 :: hex => let n := min 2 (hex.takeWhile isHexByte).length; (2 + n, n == 2)
  | 0x5C :: 0x75 :: hex => let n := min 4 (hex.takeWhile isHexByte).length; (2 + n, n == 4)
  | 0x5C :: 0x55 :: hex => let n := min 8 (hex.takeWhile isHexByte).length; (2 + n, n == 8)
  | 0x5C :: c :: rest =>
    if isOctalByte c then
      let n := min 3 ((c :: rest).takeWhile isOctalByte).length
      (1 + n, n == 3)
    else if isRuneEscape c then (2, true)
    else (1, false)
  | 0x5C :: _ => (1, false)
  | 0x27 :: _ => (0, false)
  | 0 :: _ => (0, false)
  | [] => (0, false)
  | bs => (charLength bs, true)

/-- The length of a rune literal at the head, zero if there is none. -/
def runeLength : Bytes → Nat
  | 0x27 :: bs =>
    let (n, whole) := runeBody bs
    if whole && (bs.drop n).head? == some 0x27 then n + 2 else 0
  | _ => 0

/-- How many bytes could belong to a rune literal at the head, where none is complete. -/
def runeReach : Bytes → Nat
  | 0x27 :: bs => 1 + (runeBody bs).1
  | _ => 0

end ImportGroups.Source
