import ImportGroups.Source.Lexeme
import ImportGroups.Source.Symbol

/-!
Tokens of a Go source.

What is read at a place depends on the mode of the reader, the set of symbols that it looks for
there. Line feeds are a token only in a mode that looks for them and blank in any other. Of several
symbols the one with the longest text is read.

The first mode is also the one of a reader that is out of step. It knows all tokens but line ends
and the inside of strings, and characters that start none of them form a token of no symbol.
-/

namespace ImportGroups.Source

open Text (Bytes)

namespace Mode

open ImportGroups.Source.Symbol

private def comparisons : List Symbol := [equal, notEqual, less, lessEqual, greater, greaterEqual]

private def logical : List Symbol := [andAnd, orOr]

private def arithmetic : List Symbol :=
  [star, plus, minus, bar, caret, ampersand, slash, percent, leftShift, rightShift, andNot]

private def assignments : List Symbol :=
  [assign, starAssign, slashAssign, percentAssign, leftShiftAssign, rightShiftAssign,
   ampersandAssign, andNotAssign, plusAssign, minusAssign, barAssign, caretAssign]

private def binary : List Symbol := arithmetic ++ comparisons ++ logical

private def steps : List Symbol := [increment, decrement]

private def numbers : List Symbol := [integer, float, imaginary, rune]

private def quotes : List Symbol := [rawQuote, quote]

private def operand : List Symbol :=
  [dot, leftParen, comma, leftBracket, leftBrace] ++ binary ++ [comment]

private def expression : List Symbol :=
  [identifier, leftParen, leftBracket, star, arrow, plus, minus, exclamation, caret, ampersand,
   tilde] ++ quotes ++ numbers ++ [comment]

def lists : List (List Symbol) :=
  [expression ++ operand ++ assignments ++ steps ++
     [endOfFile, semicolon, zero, rightParen, rightBracket, ellipsis, rightBrace, define, colon,
      closingQuote, escape],
   expression ++
     [endOfFile, semicolon, rightParen, comma, rightBracket, ellipsis, leftBrace, rightBrace,
      colon],
   expression ++
     [endOfFile, newline, semicolon, zero, rightParen, comma, assign, leftBrace, rightBrace, bar],
   operand ++ quotes ++
     [identifier, rightParen, assign, rightBracket, ellipsis, tilde, arrow, define, colon],
   operand ++ assignments ++ steps ++ quotes ++
     [endOfFile, identifier, newline, semicolon, zero, rightParen, tilde, rightBrace, arrow, define,
      colon],
   operand ++ assignments ++ steps ++ [semicolon, arrow, define],
   operand ++ assignments ++ [define],
   operand ++
     [semicolon, rightParen, assign, rightBracket, ellipsis, rightBrace, define, colon],
   operand ++ [identifier, newline, semicolon, zero, rightBrace],
   [content, closingQuote, escape, comment],
   [rawContent, comment]]

def sets : Array SymbolSet := (lists.map SymbolSet.ofList).toArray

end Mode

def modeSymbols (mode : Nat) : SymbolSet := Mode.sets[mode]?.getD default

/-- The symbols that a reader looks for that is out of step. -/
def looseSymbols : SymbolSet := modeSymbols 0

structure Lexed where
  symbol : Symbol
  start : Mark
  stop : Mark
  deriving Repr

namespace Mark

def skipByteOrderMark (m : Mark) : Mark :=
  if m.offset == 0 && [0xEF, 0xBB, 0xBF].isPrefixOf m.rest then m.advance 3 else m

/-- Past blanks. Line feeds are blank if `lines` is set. -/
def skipBlanks (lines : Bool) (m : Mark) : Mark :=
  m.advance (m.rest.takeWhile fun b => isBlankByte b && (lines || b != lineFeed)).length

end Mark

def numberAt? (bs : Bytes) : Option (Symbol × Nat) :=
  let integer := integerLength bs
  let float := floatLength bs
  let imaginary := imaginaryLength bs
  if integer < imaginary && float < imaginary then some (.imaginary, imaginary)
  else if integer < float then some (.float, float)
  else if integer != 0 then some (.integer, integer)
  else none

def operatorAt? (set : SymbolSet) (bs : Bytes) : Option (Symbol × Nat) :=
  (Symbol.operatorSpellings.find? fun (spelling, s) => spelling.isPrefixOf bs && set.contains s).map
    fun (spelling, s) => (s, spelling.length)

/-- The symbol of the set at the head of a text that starts with no blank, and its length. -/
def symbolAt? (set : SymbolSet) (bs : Bytes) : Option (Symbol × Nat) :=
  match bs with
  | [] =>
    if set.contains .endOfFile then some (.endOfFile, 0)
    else if set.contains .zero then some (.zero, 0)
    else none
  | b :: _ =>
    if b == lineFeed then
      if set.contains .newline then some (.newline, (bs.takeWhile (· == lineFeed)).length) else none
    else if b == 0 then if set.contains .zero then some (.zero, 1) else none
    else if set.contains .comment && commentLength bs != 0 then some (.comment, commentLength bs)
    else if set.contains .identifier && wordLength bs != 0 then some (.identifier, wordLength bs)
    else
      let number? := if set.contains .integer then numberAt? bs else none
      let rune? : Option (Symbol × Nat) :=
        if set.contains .rune && runeLength bs != 0 then some (.rune, runeLength bs) else none
      number?.or (rune?.or (operatorAt? set bs))

/-- The symbol of the set that stands right here, where no blank may come before it. -/
def tightSymbolAt? (set : SymbolSet) (bs : Bytes) : Option (Symbol × Nat) :=
  if set.contains .rawContent then some (.rawContent, rawContentLength bs)
  else if set.contains .closingQuote && bs.head? == some quoteByte then some (.closingQuote, 1)
  else if set.contains .escape && bs.head? == some backslashByte && escapeLength bs != 0 then
    some (.escape, escapeLength bs)
  else if set.contains .content && contentLength bs != 0 then some (.content, contentLength bs)
  else none

def Mark.lex? (set : SymbolSet) (m : Mark) : Option Lexed :=
  let m := m.skipByteOrderMark
  match tightSymbolAt? set m.rest with
  | some (s, n) => some ⟨s, m, m.advance n⟩
  | none =>
    let start := m.skipBlanks (!set.contains .newline)
    (symbolAt? set start.rest).map fun (s, n) => ⟨s, start, start.advance n⟩

/-- How far a reader looks that finds no token: past blanks and the beginning of a literal. -/
def Mark.reach (m : Mark) : Mark :=
  let m := m.skipByteOrderMark
  if m.rest.head? == some backslashByte then m.advance (escapeReach m.rest)
  else
    let start := m.skipBlanks true
    start.advance (runeReach start.rest)

/-- The end of a run of characters that start no token, of which the reader has passed `m`. Blanks
inside the run belong to it. -/
def unknownEnd : Nat → Mark → Mark
  | 0, m => m
  | fuel + 1, m =>
    if (m.lex? looseSymbols).isSome then m
    else if m.reach.offset == m.offset then unknownEnd fuel (m.advance (charLength m.rest))
    else unknownEnd fuel m.reach

/-- The run of characters here that start no token. -/
def Mark.unknown (m : Mark) : Mark × Mark :=
  let start := (m.skipByteOrderMark).skipBlanks true
  let reached := m.reach
  let first :=
    if reached.offset == start.offset then start.advance (charLength start.rest) else reached
  (start, unknownEnd m.rest.length first)

end ImportGroups.Source
