import ImportGroups.Text.Utf8

/-!
The symbols of Go's grammar.

Every token carries one symbol. Strings are read in pieces: the opening quote, the content between
escapes, the escapes and the closing quote are symbols of their own.
-/

namespace ImportGroups.Source

open Text (Bytes)

inductive Symbol where
  | endOfFile | identifier | newline | semicolon
  /-- The zero byte. It ends a statement, as does the end of the file where it is not expected. -/
  | zero
  | packageWord | importWord | dot | underscore | leftParen | rightParen | constWord | comma
  | assign | varWord | funcWord | leftBracket | rightBracket | ellipsis | typeWord | star
  | structWord | tilde | leftBrace | rightBrace | interfaceWord | bar | mapWord | chanWord | arrow
  | define | increment | decrement | starAssign | slashAssign | percentAssign | leftShiftAssign
  | rightShiftAssign | ampersandAssign | andNotAssign | plusAssign | minusAssign | barAssign
  | caretAssign | colon | fallthroughWord | breakWord | continueWord | gotoWord | returnWord
  | goWord | deferWord | ifWord | elseWord | forWord | rangeWord | switchWord | caseWord
  | defaultWord | selectWord | newWord | makeWord | plus | minus | exclamation | caret | ampersand
  | slash | percent | leftShift | rightShift | andNot | equal | notEqual | less | lessEqual
  | greater | greaterEqual | andAnd | orOr | rawQuote | rawContent
  /-- A quote that opens a string. -/
  | quote
  | content
  /-- A quote that closes a string. Nothing blank may stand before it. -/
  | closingQuote
  | escape | integer | float | imaginary | rune | nilWord | trueWord | falseWord | iotaWord
  | comment
  deriving DecidableEq, Repr, Inhabited

namespace Symbol

def all : List Symbol :=
  [endOfFile, identifier, newline, semicolon, zero, packageWord, importWord, dot, underscore,
   leftParen, rightParen, constWord, comma, assign, varWord, funcWord, leftBracket, rightBracket,
   ellipsis, typeWord, star, structWord, tilde, leftBrace, rightBrace, interfaceWord, bar,
   mapWord, chanWord, arrow, define, increment, decrement, starAssign, slashAssign, percentAssign,
   leftShiftAssign, rightShiftAssign, ampersandAssign, andNotAssign, plusAssign, minusAssign,
   barAssign, caretAssign, colon, fallthroughWord, breakWord, continueWord, gotoWord, returnWord,
   goWord, deferWord, ifWord, elseWord, forWord, rangeWord, switchWord, caseWord, defaultWord,
   selectWord, newWord, makeWord, plus, minus, exclamation, caret, ampersand, slash, percent,
   leftShift, rightShift, andNot, equal, notEqual, less, lessEqual, greater, greaterEqual, andAnd,
   orOr, rawQuote, rawContent, quote, content, closingQuote, escape, integer, float, imaginary,
   rune, nilWord, trueWord, falseWord, iotaWord, comment]

def index (s : Symbol) : Nat := s.ctorIdx

def reservedWords : List (String × Symbol) :=
  [("break", breakWord), ("case", caseWord), ("chan", chanWord), ("const", constWord),
   ("continue", continueWord), ("default", defaultWord), ("defer", deferWord), ("else", elseWord),
   ("fallthrough", fallthroughWord), ("for", forWord), ("func", funcWord), ("go", goWord),
   ("goto", gotoWord), ("if", ifWord), ("import", importWord), ("interface", interfaceWord),
   ("map", mapWord), ("package", packageWord), ("range", rangeWord), ("return", returnWord),
   ("select", selectWord), ("struct", structWord), ("switch", switchWord), ("type", typeWord),
   ("var", varWord)]

def softWords : List (String × Symbol) :=
  [("_", underscore), ("false", falseWord), ("iota", iotaWord), ("make", makeWord),
   ("new", newWord), ("nil", nilWord), ("true", trueWord)]

def wordSpellings : List (Bytes × Symbol) :=
  (reservedWords ++ softWords).map fun (w, s) => (Text.encodeUtf8 w, s)

def isReserved (s : Symbol) : Bool := reservedWords.any (·.2 == s)

def isSoft (s : Symbol) : Bool := softWords.any (·.2 == s)

def ofWord? (word : Bytes) : Option Symbol :=
  (wordSpellings.find? (·.1 == word)).map (·.2)

def operators : List (String × Symbol) :=
  [("&^=", andNotAssign), ("<<=", leftShiftAssign), (">>=", rightShiftAssign), ("...", ellipsis),
   ("&&", andAnd), ("||", orOr), ("<-", arrow), ("++", increment), ("--", decrement),
   ("==", equal), ("!=", notEqual), ("<=", lessEqual), (">=", greaterEqual), (":=", define),
   ("+=", plusAssign), ("-=", minusAssign), ("*=", starAssign), ("/=", slashAssign),
   ("%=", percentAssign), ("&=", ampersandAssign), ("|=", barAssign), ("^=", caretAssign),
   ("<<", leftShift), (">>", rightShift), ("&^", andNot),
   ("+", plus), ("-", minus), ("*", star), ("/", slash), ("%", percent), ("&", ampersand),
   ("|", bar), ("^", caret), ("<", less), (">", greater), ("=", assign), ("!", exclamation),
   ("(", leftParen), (")", rightParen), ("[", leftBracket), ("]", rightBracket),
   ("\x7b", leftBrace), ("\x7d", rightBrace), (",", comma), (";", semicolon), (".", dot),
   (":", colon), ("~", tilde), ("`", rawQuote), ("\"", quote)]

def operatorSpellings : List (Bytes × Symbol) :=
  operators.map fun (w, s) => (Text.encodeUtf8 w, s)

/-- A line end is not a part of the text that a reader sees. -/
def isVisible : Symbol → Bool
  | newline | endOfFile => false
  | _ => true

end Symbol

structure SymbolSet where
  bits : Nat
  deriving DecidableEq, Repr, Inhabited

namespace SymbolSet

def contains (set : SymbolSet) (s : Symbol) : Bool := set.bits.testBit s.index

def ofList (symbols : List Symbol) : SymbolSet :=
  ⟨symbols.foldl (fun bits s => bits ||| 1 <<< s.index) 0⟩

def meets (a b : SymbolSet) : Bool := a.bits &&& b.bits != 0

end SymbolSet

end ImportGroups.Source
