import ImportGroups.Number.Numeral
import ImportGroups.Text.Utf8
import ImportGroups.Yaml.ScalarText

/-!
Cutting a YAML text into tokens.

Tokens are cut on demand. Indentation becomes explicit: a block collection is opened by a token of
its own at its first entry and closed when a line starts further left. A scalar, alias or flow
collection that a colon follows on the same line turns out to be a key only then, so key tokens are
put in afterwards, and a token that may still become a key is held back.

A version directive holds from its own line on.
-/

namespace ImportGroups.Yaml

/-- A place where a key may turn out to start. -/
structure KeyPlace where
  /-- The number of the token that stands there. -/
  token : Nat
  required : Bool
  index : Nat
  line : Nat
  column : Nat
  deriving Repr

inductive FlowKind where
  | sequence
  | mapping
  deriving DecidableEq, Repr

structure ScanState where
  cursor : Cursor
  version : Version
  /-- A bound on the steps of every reader of a part of the text. -/
  fuel : Nat
  /-- The tokens that were cut and not yet taken. -/
  tokens : List Token := []
  /-- How many tokens were taken. -/
  taken : Nat := 0
  done : Bool := false
  /-- The columns of the open block collections, innermost first; `none` is outside all of them. -/
  indents : List (Option Nat) := []
  indent : Option Nat := none
  mayKey : Bool := true
  /-- The possible key of each flow level that has one. -/
  keys : List (Nat × KeyPlace) := []
  flow : List FlowKind := []

abbrev Scan := Except LoadError

def require (b : Bool) : Scan Unit := if b then .ok () else .error .invalid

namespace ScanState

def inFlow (st : ScanState) : Bool := !st.flow.isEmpty

def push (st : ScanState) (t : Token) : ScanState := { st with tokens := st.tokens ++ [t] }

def count (st : ScanState) : Nat := st.taken + st.tokens.length

def insert (st : ScanState) (i : Nat) (t : Token) : ScanState :=
  { st with tokens := st.tokens.insertIdx (i - st.taken) t }

/-- The column that content of the innermost block collection needs at least. -/
def minColumn (st : ScanState) : Nat :=
  match st.indent with
  | none => 0
  | some n => n + 1

/-- A key stands on one line and is at most 1024 characters long. -/
def isStale (c : Cursor) (k : KeyPlace) : Bool := k.line != c.line || 1024 < c.index - k.index

def dropStale (st : ScanState) : Scan ScanState := do
  require (!st.keys.any fun (_, k) => isStale st.cursor k && k.required)
  return { st with keys := st.keys.filter fun (_, k) => !isStale st.cursor k }

/-- The place of a key at this level of flow collections is forgotten. -/
def forgetKey (st : ScanState) : ScanState :=
  { st with keys := st.keys.filter fun (level, _) => level != st.flow.length }

def dropKey (st : ScanState) : Scan ScanState := do
  require (!st.keys.any fun (level, k) => level == st.flow.length && k.required)
  return st.forgetKey

def saveKey (st : ScanState) : Scan ScanState := do
  if st.mayKey then
    let required := !st.inFlow && st.indent == some st.cursor.column
    let c := st.cursor
    let st ← st.dropKey
    let k : KeyPlace := ⟨st.count, required, c.index, c.line, c.column⟩
    return { st with keys := (st.flow.length, k) :: st.keys }
  else return st

/-- Closes the block collections that start right of `column`; all of them for `none`. -/
def closeBlocks (st : ScanState) (column : Option Nat) : ScanState :=
  if st.inFlow then st
  else
    let rec go : List (Option Nat) → Option Nat → List Token → ScanState
      | [], indent, ends => { st with indents := [], indent, tokens := st.tokens ++ ends }
      | outer :: rest, indent, ends =>
        let isRight :=
          match indent, column with
          | none, _ => false
          | some _, none => true
          | some i, some c => c < i
        if isRight then go rest outer (.blockEnd :: ends)
        else { st with indents := outer :: rest, indent, tokens := st.tokens ++ ends }
    go st.indents st.indent []

/-- Opens a block collection at `column` unless one is open there; `start` goes to place `i`. -/
def openBlock (st : ScanState) (column : Nat) (start : Token) (i : Nat) : ScanState :=
  let isNew :=
    match st.indent with
    | none => true
    | some n => n < column
  if isNew then
    { st.insert i start with indents := st.indent :: st.indents, indent := some column }
  else st

def blockScalarText (st : ScanState) (style : BlockStyle) (c : Cursor) (breaks : List Char) :
    ScanState :=
  let (text, c) :=
    if c.column == style.indent && !c.chars.isEmpty then blockText style st.fuel c breaks []
    else (if style.chomping == .keep then breaks else [], c)
  { st.push (.scalar (.ofList text) false) with cursor := c }

def blockScalar (st : ScanState) (folded : Bool) : Scan ScanState := do
  let st ← { st with mayKey := true }.dropKey
  match blockHeader st.cursor.next with
  | none => throw .invalid
  | some (chomping, some n, c) =>
    let indent := max st.minColumn 1 + n - 1
    let (breaks, c) := blockBreaks indent st.fuel c
    return st.blockScalarText ⟨folded, chomping, indent, false⟩ c breaks
  | some (chomping, none, c) =>
    let (breaks, widest, first, c) := leadingLines st.fuel c 0 none
    require (!first.any fun n => 0 < n && n < widest)
    let indent := max st.minColumn widest
    return st.blockScalarText ⟨folded, chomping, indent, st.minColumn == 0⟩ c breaks

def quotedScalar (st : ScanState) (quote : Char) : Scan ScanState := do
  let st ← st.saveKey
  let (text, c) ← quotedText quote st.fuel st.cursor.next []
  return { st.push (.scalar (.ofList text) false) with cursor := c, mayKey := false }

def plainScalar (st : ScanState) : Scan ScanState := do
  let st ← st.saveKey
  let place : PlainPlace := ⟨st.inFlow, st.minColumn, st.version⟩
  let (text, mayKey, c) := plainText place st.fuel st.cursor [] [] false
  return { st.push (.scalar (.ofList text) true) with cursor := c, mayKey }

def isAnchorChar (c : Char) : Bool :=
  let n := c.toNat
  !",[]\x7b\x7d".toList.contains c &&
    ((0x21 ≤ n && n ≤ 0x7E) || (0xA0 ≤ n && n ≤ 0xD7FF) ||
      (0xE000 ≤ n && n ≤ 0xFFFD && n != 0xFEFF) ||
      0x10000 ≤ n)

def anchorOrReference (st : ScanState) (make : String → Token) : Scan ScanState := do
  let st ← st.saveKey
  let (name, c) := st.cursor.next.span isAnchorChar
  require (!name.isEmpty)
  require (endOr (fun ch =>
      ch == ' ' || ch == '\t' || isBreak ch || "?:,[]\x7b\x7d%@\x60".toList.contains ch)
    c.peek?)
  return { st.push (make (.ofList name)) with cursor := c, mayKey := false }

def isTagChar (v : Version) (c : Char) : Bool :=
  c.isAlphanum || "-;/?:@&=+$,_.!~*'()[]%".toList.contains c || (c == '#' && v.isAfter11)

/-- The bytes written as a percent sign and two digits each that stand at the front, and what
follows them; `none` if a percent sign lacks its digits. -/
def escapedBytes? : Nat → List Char → Option (Text.Bytes × List Char)
  | fuel + 1, '%' :: rest =>
    match rest with
    | a :: b :: rest => do
      let n ← hexNumber? [a, b]
      let (bytes, rest) ← escapedBytes? fuel rest
      return (.ofNat n :: bytes, rest)
    | _ => none
  | _, cs => some ([], cs)

def hasGoodEscapes : Nat → List Char → Bool
  | 0, _ => false
  | _, [] => true
  | fuel + 1, c :: cs =>
    if c == '%' then
      match escapedBytes? fuel (c :: cs) with
      | some (bytes, rest) => (Text.decodeUtf8? bytes).isSome && hasGoodEscapes fuel rest
      | none => false
    else hasGoodEscapes fuel cs

def tagUri (st : ScanState) (c : Cursor) : Scan (String × Cursor) := do
  let (uri, c) := c.span (isTagChar st.version)
  require (!uri.isEmpty && hasGoodEscapes (uri.length + 1) uri)
  return (.ofList uri, c)

/-- A handle is a mark, or a word between two marks. -/
def tagHandle (c : Cursor) : Scan (String × Cursor) := do
  require (c.peek? == some '!')
  if c.peekAt? 1 == some ' ' then return ("!", c.next)
  else
    let (word, c) := c.next.span fun ch => ch.isAlphanum || ch == '-' || ch == '_'
    require (c.peek? == some '!')
    return (.ofList ('!' :: word ++ ['!']), c.next)

def isTagStop : Option Char → Bool := endOr fun ch => ch == ' ' || isBreak ch

def tagToken (st : ScanState) : Scan (Token × Cursor) :=
  let (short, c) :=
    if st.cursor.peekAt? 1 == some '!' then ("!!", st.cursor.next) else ("!", st.cursor)
  match c.peekAt? 1 with
  | some '<' => do
    let (suffix, c) ← st.tagUri (c.advance 2)
    require (c.peek? == some '>')
    return (.tag none suffix, c.next)
  | ch =>
    if endOr isGap ch then return (.tag none "!", c.next)
    else do
      let word := c.chars.tail.takeWhile fun ch => !isTagStop (some ch)
      let (handle, c) ← if word.contains '!' then tagHandle c else pure (short, c.next)
      let (suffix, c) ← st.tagUri c
      return (.tag (some handle) suffix, c)

def tag (st : ScanState) : Scan ScanState := do
  let st ← st.saveKey
  let (token, c) ← st.tagToken
  require (isTagStop c.peek?)
  return { st.push token with cursor := c, mayKey := false }

def versionNumber (c : Cursor) : Scan (Nat × Cursor) :=
  let (digits, c) := c.span Char.isDigit
  if digits.isEmpty then .error .invalid
  else
    match Numeral.natural? 10 digits with
    | some n => .ok (n, c)
    | none => .error .malformedNumber

def directiveBody (st : ScanState) (name : List Char) (c : Cursor) : Scan (Directive × Cursor) :=
  if name == "YAML".toList then do
    let (major, c) ← versionNumber (c.skip (· == ' '))
    require (c.peek? == some '.')
    let (minor, c) ← versionNumber c.next
    require (isTagStop c.peek?)
    return (.version ⟨major, minor⟩, c)
  else if name == "TAG".toList then do
    let (handle, c) ← tagHandle (c.skip (· == ' '))
    require (c.peek? == some ' ')
    let (start, c) ← st.tagUri (c.skip (· == ' '))
    require (isTagStop c.peek?)
    return (.tag handle start, c)
  else return (.other, c.skip (!isLineStop ·))

def obey (st : ScanState) : Directive → ScanState
  | .version v => { st with version := v }
  | _ => st

/-- The rest of a directive's line holds at most a comment. -/
def directiveEnd (st : ScanState) (d : Directive) (c : Cursor) : Scan ScanState := do
  let c := c.skip (· == ' ')
  let c := if c.peek? == some '#' then c.skip (!isLineStop ·) else c
  require (endOr isLineStop c.peek?)
  return { (st.obey d).push (.directive d) with cursor := c.next }

def directive (st : ScanState) : Scan ScanState := do
  let st ← (st.closeBlocks none).dropKey
  let (name, c) := st.cursor.next.span fun ch => ch.isAlphanum || "-_:.".toList.contains ch
  require (!name.isEmpty && isTagStop c.peek?)
  let (d, c) ← st.directiveBody name c
  { st with mayKey := false }.directiveEnd d c

def documentMarker (st : ScanState) (t : Token) : Scan ScanState := do
  let st ← (st.closeBlocks none).dropKey
  return { st.push t with mayKey := false, cursor := st.cursor.advance 3 }

def flowStart (st : ScanState) (kind : FlowKind) (t : Token) : Scan ScanState := do
  let st ← st.saveKey
  return { st.push t with flow := kind :: st.flow, mayKey := true, cursor := st.cursor.next }

def flowEnd (st : ScanState) (t : Token) : Scan ScanState := do
  let st ← st.dropKey
  return { st.push t with flow := st.flow.tail, mayKey := false, cursor := st.cursor.next }

def flowEntry (st : ScanState) : Scan ScanState := do
  let st ← { st with mayKey := true }.dropKey
  return { st.push .flowEntry with cursor := st.cursor.next }

/-- Outside flow collections, an indicator may open a block collection here. -/
def openHere (st : ScanState) (start : Token) : Scan ScanState := do
  require (st.inFlow || st.mayKey)
  return if st.inFlow then st else st.openBlock st.cursor.column start st.count

def blockEntry (st : ScanState) : Scan ScanState := do
  let st ← st.openHere .blockSequenceStart
  let st ← { st with mayKey := true }.dropKey
  return { st.push .blockEntry with cursor := st.cursor.next }

def keyMark (st : ScanState) : Scan ScanState := do
  let st ← st.openHere .blockMappingStart
  let st ← { st with mayKey := !st.inFlow }.dropKey
  return { st.push .key with cursor := st.cursor.next }

def valueMark (st : ScanState) : Scan ScanState := do
  match st.keys.lookup st.flow.length with
  | some k =>
    let st := st.forgetKey.insert k.token .key
    let st := if st.inFlow then st else st.openBlock k.column .blockMappingStart k.token
    return { st.push .value with mayKey := false, cursor := st.cursor.next }
  | none =>
    let st ← st.openHere .blockMappingStart
    let st ← { st with mayKey := !st.inFlow }.dropKey
    return { st.push .value with cursor := st.cursor.next }

/-- White space, comments and line breaks. Tabs count as white space inside flow collections only.
-/
def skipBlanks (st : ScanState) : Nat → Cursor → Bool → Cursor × Bool
  | 0, c, mayKey => (c, mayKey)
  | fuel + 1, c, mayKey =>
    let c := c.skip fun ch => ch == ' ' || (st.inFlow && ch == '\t')
    let c := if c.peek? == some '#' then c.skip (!isLineStop ·) else c
    match c.lineBreak? with
    | some (_, c) => st.skipBlanks fuel c (mayKey || !st.inFlow)
    | none => (c, mayKey)

def atValue (st : ScanState) : Bool :=
  let gap := endOr isGap (st.cursor.peekAt? 1)
  match st.flow with
  | [] => gap
  | kind :: _ =>
    st.version == .v11 || gap || !(kind == .sequence || st.tokens.getLast? == some .value)

def atPlain (st : ScanState) (c : Char) : Bool :=
  let gap := endOr isGap (st.cursor.peekAt? 1)
  let excluded := isGap c || isBreak c || "-?:,[]\x7b\x7d#&*!|>'\"%@\x60".toList.contains c
  if !excluded then true
  else if c == '-' && !gap then true
  else if st.version != .v11 && c == ':' && st.inFlow &&
      !(st.cursor.peekAt? 1).any (fun d => d == ' ' || d == '\t') then true
  else !gap && !st.inFlow && (c == '?' || c == ':')

def token (st : ScanState) (c : Char) : Scan ScanState :=
  let gap := endOr isGap (st.cursor.peekAt? 1)
  let atMargin := st.cursor.column == 0
  if c == '%' && atMargin then st.directive
  else if atMargin && st.cursor.atMarker '-' then st.documentMarker .documentStart
  else if atMargin && st.cursor.atMarker '.' then st.documentMarker .documentEnd
  else if c == '[' then st.flowStart .sequence .flowSequenceStart
  else if c == '{' then st.flowStart .mapping .flowMappingStart
  else if c == ']' then st.flowEnd .flowSequenceEnd
  else if c == '}' then st.flowEnd .flowMappingEnd
  else if c == ',' then st.flowEntry
  else if c == '-' && gap then st.blockEntry
  else if c == '?' && (st.inFlow || gap) then st.keyMark
  else if c == ':' && st.atValue then st.valueMark
  else if c == '*' then st.anchorOrReference .reference
  else if c == '&' then st.anchorOrReference .anchor
  else if c == '!' then st.tag
  else if c == '|' && !st.inFlow then st.blockScalar false
  else if c == '>' && !st.inFlow then st.blockScalar true
  else if c == '\'' then st.quotedScalar '\''
  else if c == '"' then st.quotedScalar '"'
  else if st.atPlain c then st.plainScalar
  else .error .invalid

/-- The end of the text closes what is open. -/
def finish (st : ScanState) : Scan ScanState := do
  let st ← (st.closeBlocks none).dropKey
  return { st.push .streamEnd with mayKey := false, keys := [], done := true }

def fetch (st : ScanState) : Scan ScanState := do
  let (c, mayKey) := st.skipBlanks st.fuel st.cursor st.mayKey
  let st ← { st with cursor := c, mayKey }.dropStale
  let st := st.closeBlocks (some st.cursor.column)
  match st.cursor.peek? with
  | none => st.finish
  | some c => st.token c

/-- Cuts off tokens until the next one to be taken is certain. -/
def fill : Nat → ScanState → Scan ScanState
  | 0, st => .ok st
  | fuel + 1, st => do
    if st.done then return st
    else if st.tokens.isEmpty then fill fuel (← st.fetch)
    else
      let st ← st.dropStale
      if st.keys.any fun (_, k) => k.token == st.taken then fill fuel (← st.fetch) else return st

def ready (st : ScanState) : Scan ScanState := st.fill st.fuel

def take (st : ScanState) : ScanState := { st with tokens := st.tokens.tail, taken := st.taken + 1 }

end ScanState

/-- Characters that may stand in a YAML text at all. -/
def isAllowed (c : Char) : Bool :=
  let n := c.toNat
  n == 0x09 || n == 0x0A || n == 0x0D || (0x20 ≤ n && n ≤ 0x7E) || n == 0x85 ||
    (0xA0 ≤ n && n ≤ 0xD7FF) || (0xE000 ≤ n && n ≤ 0xFFFD) || 0x10000 ≤ n

/-- Before the first token of a text with line feeds as line ends. A byte order mark in front does
not count. -/
def ScanState.ofText (v : Version) (text : List Char) : Scan ScanState := do
  require (text.all isAllowed)
  let chars := match text with
    | c :: cs => if c.toNat == 0xFEFF then cs else text
    | [] => []
  return { cursor := { chars }, version := v, fuel := 2 * text.length + 4 }

end ImportGroups.Yaml
