import ImportGroups.Proofs.Reading.Marks
import ImportGroups.Source.Contest

/-!
Reading a token whose text is known.

Where blanks, the text of a token and something that cannot belong to it stand behind a mark, the
token that is read is the expected one, with its text just behind the blanks.
-/

namespace ImportGroups.Source

open Text (Bytes)

def Mark.token (m : Mark) (t : Symbol) (w text : Bytes) : Tree :=
  .leaf t m.offset (m.past w) ((m.past w).past text)

@[simp] theorem Mark.token_symbol? (m : Mark) (t : Symbol) (w text : Bytes) :
    (m.token t w text).symbol? = some t := rfl

@[simp] theorem Mark.token_extra (m : Mark) (t : Symbol) (w text : Bytes) :
    (m.token t w text).extra = false := rfl

@[simp] theorem Mark.token_stop (m : Mark) (t : Symbol) (w text : Bytes) :
    (m.token t w text).stop = (m.past w).past text := rfl

theorem takeWhile_append_stop {α : Type} {p : α → Bool} {w more : List α}
    (hw : ∀ b ∈ w, p b = true) (hmore : ∀ b ∈ more.head?, p b = false) :
    (w ++ more).takeWhile p = w := by
  rw [List.takeWhile_append_of_pos hw]
  cases more with
  | nil => simp
  | cons b more => simp [hmore b rfl]

theorem Mark.skipBlanks_past {lines : Bool} {m : Mark} {w more : Bytes} (h : m.rest = w ++ more)
    (hw : ∀ b ∈ w, (isBlankByte b && (lines || b != lineFeed)) = true)
    (hmore : ∀ b ∈ more.head?, (isBlankByte b && (lines || b != lineFeed)) = false) :
    m.skipBlanks lines = m.past w := by
  rw [skipBlanks, h, takeWhile_append_stop hw hmore, past]

theorem Mark.skipByteOrderMark_of_pos {m : Mark} (h : 0 < m.offset) : m.skipByteOrderMark = m := by
  have : m.offset ≠ 0 := by omega
  simp [skipByteOrderMark, this]

theorem Mark.skipByteOrderMark_of_head {m : Mark} {b : UInt8} {bs : Bytes} (h : m.rest = b :: bs)
    (hb : b ≠ 0xEF) : m.skipByteOrderMark = m := by
  simp [skipByteOrderMark, h, hb.symm]

/-- Line feeds belong to the blanks of the mode, unless the mode looks for them. -/
def blankIn (mode : Nat) (b : UInt8) : Bool :=
  isBlankByte b && (!(modeSymbols mode).contains .newline || b != lineFeed)

theorem lex?_of_symbolAt {mode : Nat} {m : Mark} {t : Symbol} {w text more : Bytes}
    (h : m.rest = w ++ (text ++ more)) (hbom : m.skipByteOrderMark = m)
    (htight : tightSymbolAt? (modeSymbols mode) m.rest = none)
    (hw : ∀ b ∈ w, blankIn mode b = true)
    (htext : ∀ b ∈ (text ++ more).head?, blankIn mode b = false)
    (hsymbol : symbolAt? (modeSymbols mode) (text ++ more) = some (t, text.length)) :
    m.lex? (modeSymbols mode) = some ⟨t, m.past w, (m.past w).past text⟩ := by
  have hskip : m.skipBlanks (!(modeSymbols mode).contains .newline) = m.past w :=
    Mark.skipBlanks_past h hw htext
  simp only [Mark.lex?, hbom, htight, hskip, Mark.rest_past h, hsymbol, Option.map_some]
  rfl

theorem lex?_of_tightSymbolAt {mode : Nat} {m : Mark} {t : Symbol} (text : Bytes) {more : Bytes}
    (h : m.rest = text ++ more) (hbom : m.skipByteOrderMark = m)
    (htight : tightSymbolAt? (modeSymbols mode) (text ++ more) = some (t, text.length)) :
    m.lex? (modeSymbols mode) = some ⟨t, m, m.past text⟩ := by
  simp only [Mark.lex?, hbom, h, htight, Mark.past]

theorem readToken_of_lex? {s : State} {m : Mark} {t : Symbol} {w text : Bytes}
    (h : m.lex? (modeSymbols (Automaton.mode s)) = some ⟨t, m.past w, (m.past w).past text⟩)
    (ht : t ≠ .identifier) : readToken s m = (m.token t w text, false) := by
  simp [readToken, h, ht, Mark.token]

/-- The symbol that a word has in a state. A keyword that does not fit is an identifier, if it is
not reserved. -/
def wordSymbol (s : State) (word : Bytes) : Symbol :=
  match Symbol.ofWord? word with
  | none => .identifier
  | some t =>
    if Automaton.admits s t || s != Automaton.lost && t.isReserved && Automaton.admits s .identifier
    then t else .identifier

theorem wordSymbol_of_actions {s : State} {word : Bytes} {t : Symbol} {a : Action}
    {more : List Action} (hword : Symbol.ofWord? word = some t)
    (h : Automaton.actions s t = a :: more) : wordSymbol s word = t := by
  simp [wordSymbol, hword, Automaton.admits, h]

theorem readToken_of_lex?_word {s : State} {m : Mark} {w text more : Bytes}
    (h : m.rest = w ++ (text ++ more))
    (hlex : m.lex? (modeSymbols (Automaton.mode s)) =
      some ⟨.identifier, m.past w, (m.past w).past text⟩) :
    ∃ isKeyword, readToken s m = (m.token (wordSymbol s text) w text, isKeyword) := by
  have htext : (m.past w).rest.take (((m.past w).past text).offset - (m.past w).offset) = text :=
    Mark.take_past (Mark.rest_past h)
  simp only [readToken, hlex, Option.some_or, htext, wordSymbol, beq_self_eq_true, if_true]
  cases Symbol.ofWord? text with
  | none => exact ⟨false, rfl⟩
  | some t => exact ⟨true, rfl⟩

/-- These modes look for nothing that may not have blanks before it. -/
theorem tightSymbolAt?_eq_none {mode : Nat} (h : mode ∈ [1, 2, 3, 4, 8]) (bs : Bytes) :
    tightSymbolAt? (modeSymbols mode) bs = none := by
  have hsets : ∀ mode ∈ [1, 2, 3, 4, 8], ∀ t ∈ [Symbol.rawContent, .closingQuote, .escape, .content],
      (modeSymbols mode).contains t = false := by decide
  have hset := hsets mode h
  simp only [List.mem_cons, List.not_mem_nil, or_false, forall_eq_or_imp, forall_eq] at hset
  simp [tightSymbolAt?, hset]

theorem tightSymbolAt?_loose {b : UInt8} {bs : Bytes} (hquote : b ≠ quoteByte)
    (hslash : b ≠ backslashByte) : tightSymbolAt? (modeSymbols 0) (b :: bs) = none := by
  have hraw : (modeSymbols 0).contains .rawContent = false := by decide
  have hcontent : (modeSymbols 0).contains .content = false := by decide
  simp [tightSymbolAt?, hraw, hcontent, hquote, hslash]

theorem isBlankByte_lineFeed : isBlankByte lineFeed = true := by decide

theorem mem_of_isBlankByte {b : UInt8} (h : isBlankByte b = true) :
    b ∈ ([9, 10, 11, 12, 13, 32] : List UInt8) := by
  simp only [isBlankByte, Bool.or_eq_true, Bool.and_eq_true, decide_eq_true_eq, beq_iff_eq,
    UInt8.le_iff_toNat_le, ← UInt8.toNat_inj, UInt8.reduceToNat] at h
  simp only [List.mem_cons, List.not_mem_nil, or_false, ← UInt8.toNat_inj, UInt8.reduceToNat]
  omega

theorem symbolAt?_newline {set : SymbolSet} (hset : set.contains .newline = true)
    {lines more : Bytes} (hne : lines ≠ []) (hlines : ∀ b ∈ lines, b = lineFeed)
    (hmore : ∀ b ∈ more.head?, b ≠ lineFeed) :
    symbolAt? set (lines ++ more) = some (.newline, lines.length) := by
  have hrun : (lines ++ more).takeWhile (· == lineFeed) = lines :=
    takeWhile_append_stop (fun b hb => by simp [hlines b hb]) (fun b hb => by simp [hmore b hb])
  cases lines with
  | nil => exact absurd rfl hne
  | cons b lines =>
    have hb : b = lineFeed := hlines b List.mem_cons_self
    subst hb
    rw [List.cons_append] at hrun ⊢
    simp only [symbolAt?, beq_self_eq_true, if_true, hset, hrun]

def isWordStart (b : UInt8) : Bool :=
  (0x41 ≤ b && b ≤ 0x5A) || (0x61 ≤ b && b ≤ 0x7A) || b == 0x5F

def isWordByte (b : UInt8) : Bool := isWordStart b || isDigitByte b

def isWord : Bytes → Bool
  | [] => false
  | b :: bs => isWordStart b && bs.all isWordByte

def isWordEnd (b : UInt8) : Bool := b < 0x80 && !isWordByte b

theorem asciiChar (b : UInt8) (hb : b < 0x80) :
    Text.isIdentifierStart (Char.ofNat b.toNat) = isWordStart b ∧
      Text.isIdentifierPart (Char.ofNat b.toNat) = isWordByte b ∧
      (Char.ofNat b.toNat).utf8Size = 1 := by
  have hall : ∀ n : Fin 128, Text.isIdentifierStart (Char.ofNat n) = isWordStart (UInt8.ofNat n) ∧
      Text.isIdentifierPart (Char.ofNat n) = isWordByte (UInt8.ofNat n) ∧
      (Char.ofNat n).utf8Size = 1 := by decide +kernel
  simpa using hall ⟨b.toNat, hb⟩

theorem lt_of_isWordByte {b : UInt8} (h : isWordByte b = true) : b < 0x80 := by
  simp only [isWordByte, isWordStart, isDigitByte, Bool.or_eq_true, Bool.and_eq_true,
    decide_eq_true_eq, beq_iff_eq, UInt8.le_iff_toNat_le, ← UInt8.toNat_inj, UInt8.reduceToNat] at h
  simp only [UInt8.lt_iff_toNat_lt, UInt8.reduceToNat]
  omega

theorem utf8Piece_ascii {b : UInt8} (hb : b < 0x80) (bs : Bytes) :
    Text.utf8Piece b bs = .char b.toNat bs := by
  simp [Text.utf8Piece, hb]

theorem wordPartLength_append {word more : Bytes} (hword : ∀ b ∈ word, isWordByte b = true)
    (hmore : ∀ b ∈ more.head?, isWordEnd b = true) (n : Nat) :
    wordPartLength 0 n (word ++ more) = n + word.length := by
  induction word generalizing n with
  | nil =>
    cases more with
    | nil => rfl
    | cons b more =>
      have hb := hmore b rfl
      simp only [isWordEnd, Bool.and_eq_true, decide_eq_true_eq, Bool.not_eq_true'] at hb
      simp [wordPartLength, utf8Piece_ascii hb.1, Text.Utf8Piece.char, Option.filter_some,
        (asciiChar b hb.1).2.1, hb.2]
  | cons b word ih =>
    have hb := hword b List.mem_cons_self
    have hlt := lt_of_isWordByte hb
    obtain ⟨_, hpart, hsize⟩ := asciiChar b hlt
    have := ih (fun c hc => hword c (List.mem_cons_of_mem b hc)) (n + 1)
    simp [wordPartLength, utf8Piece_ascii hlt, Text.Utf8Piece.char, Option.filter_some, hpart, hb,
      hsize, this]
    omega

theorem wordLength_append {word more : Bytes} (hword : isWord word = true)
    (hmore : ∀ b ∈ more.head?, isWordEnd b = true) :
    wordLength (word ++ more) = word.length := by
  cases word with
  | nil => simp [isWord] at hword
  | cons b word =>
    simp only [isWord, Bool.and_eq_true, List.all_eq_true] at hword
    have hb : isWordByte b = true := by simp [isWordByte, hword.1]
    have hlt := lt_of_isWordByte hb
    have hall : ∀ c ∈ b :: word, isWordByte c = true := by simpa [hb] using hword.2
    have hlen := wordPartLength_append hall hmore 0
    simp only [List.cons_append] at hlen ⊢
    simp [wordLength, utf8Piece_ascii hlt, Text.Utf8Piece.char, (asciiChar b hlt).1, hword.1, hlen]

theorem symbolAt?_word {set : SymbolSet} (hset : set.contains .identifier = true)
    {word more : Bytes} (hword : isWord word = true)
    (hmore : ∀ b ∈ more.head?, isWordEnd b = true) :
    symbolAt? set (word ++ more) = some (.identifier, word.length) := by
  have hlen := wordLength_append hword hmore
  cases word with
  | nil => simp [isWord] at hword
  | cons b word =>
    simp only [isWord, Bool.and_eq_true] at hword
    have hb : ∀ c, isWordStart c = false → b ≠ c := by
      rintro c hc rfl
      rw [hword.1] at hc
      exact absurd hc (by decide)
    have hcomment : commentLength (b :: (word ++ more)) = 0 := by
      unfold commentLength
      split
      · next heq => exact absurd (List.cons.inj heq).1 (hb _ (by decide))
      · next heq => exact absurd (List.cons.inj heq).1 (hb _ (by decide))
      · rfl
    rw [List.cons_append] at hlen ⊢
    simp [symbolAt?, hb lineFeed (by decide), hb 0 (by decide), hcomment, hset, hlen]

section Read

variable {s : State} {m : Mark} {w more : Bytes}

theorem isWordEnd_of_isBlankByte {b : UInt8} (h : isBlankByte b = true) : isWordEnd b = true := by
  have hmem := mem_of_isBlankByte h
  simp only [List.mem_cons, List.not_mem_nil, or_false] at hmem
  rcases hmem with rfl | rfl | rfl | rfl | rfl | rfl <;> decide

theorem isBlankByte_of_isWordStart {b : UInt8} (h : isWordStart b = true) :
    isBlankByte b = false := by
  rw [Bool.eq_false_iff]
  intro hblank
  have hend := isWordEnd_of_isBlankByte hblank
  simp [isWordEnd, isWordByte, h] at hend

theorem readToken_word {word : Bytes} (h : m.rest = w ++ (word ++ more))
    (hbom : m.skipByteOrderMark = m)
    (htight : tightSymbolAt? (modeSymbols (Automaton.mode s)) m.rest = none)
    (hset : (modeSymbols (Automaton.mode s)).contains .identifier = true)
    (hw : ∀ b ∈ w, blankIn (Automaton.mode s) b = true) (hword : isWord word = true)
    (hmore : ∀ b ∈ more.head?, isWordEnd b = true) :
    ∃ isKeyword, readToken s m = (m.token (wordSymbol s word) w word, isKeyword) := by
  refine readToken_of_lex?_word h (lex?_of_symbolAt h hbom htight hw ?_ ?_)
  · intro b hb
    cases word with
    | nil => simp [isWord] at hword
    | cons c word =>
      obtain rfl : c = b := by simpa using hb
      simp only [isWord, Bool.and_eq_true] at hword
      simp [blankIn, isBlankByte_of_isWordStart hword.1]
  · exact symbolAt?_word hset hword hmore

theorem readToken_sign {b : UInt8} {t : Symbol} (h : m.rest = w ++ ([b] ++ more))
    (hbom : m.skipByteOrderMark = m)
    (htight : tightSymbolAt? (modeSymbols (Automaton.mode s)) m.rest = none)
    (hw : ∀ b ∈ w, blankIn (Automaton.mode s) b = true) (hb : isBlankByte b = false)
    (hsymbol : symbolAt? (modeSymbols (Automaton.mode s)) (b :: more) = some (t, 1))
    (ht : t ≠ .identifier) : readToken s m = (m.token t w [b], false) := by
  refine readToken_of_lex? (lex?_of_symbolAt h hbom htight hw ?_ hsymbol) ht
  intro c hc
  obtain rfl : b = c := by simpa using hc
  simp [blankIn, hb]

theorem readToken_newline {lines : Bytes} (h : m.rest = w ++ (lines ++ more))
    (hbom : m.skipByteOrderMark = m)
    (htight : tightSymbolAt? (modeSymbols (Automaton.mode s)) m.rest = none)
    (hset : (modeSymbols (Automaton.mode s)).contains .newline = true)
    (hw : ∀ b ∈ w, isBlankByte b = true ∧ b ≠ lineFeed) (hne : lines ≠ [])
    (hlines : ∀ b ∈ lines, b = lineFeed) (hmore : ∀ b ∈ more.head?, b ≠ lineFeed) :
    readToken s m = (m.token .newline w lines, false) := by
  have hblank : ∀ b, blankIn (Automaton.mode s) b = (isBlankByte b && b != lineFeed) := by
    simp [blankIn, hset]
  refine readToken_of_lex? (lex?_of_symbolAt h hbom htight ?_ ?_ ?_) (by decide)
  · intro b hb
    simp [hblank, hw b hb]
  · intro b hb
    cases lines with
    | nil => exact absurd rfl hne
    | cons c lines =>
      obtain rfl : c = b := by simpa using hb
      simp [hblank, hlines c List.mem_cons_self]
  · exact symbolAt?_newline hset hne hlines hmore

theorem readToken_end (h : m.rest = w) (hbom : m.skipByteOrderMark = m)
    (htight : tightSymbolAt? (modeSymbols (Automaton.mode s)) m.rest = none)
    (hset : (modeSymbols (Automaton.mode s)).contains .endOfFile = true)
    (hw : ∀ b ∈ w, blankIn (Automaton.mode s) b = true) :
    readToken s m = (m.token .endOfFile w [], false) := by
  have hrest : m.rest = w ++ ([] ++ []) := by simpa using h
  refine readToken_of_lex? (lex?_of_symbolAt hrest hbom htight hw (by simp) ?_) (by decide)
  simp [symbolAt?, hset]

def isContentByte (b : UInt8) : Bool :=
  b != quoteByte && b != backslashByte && b != lineFeed && b != 0

theorem readToken_content {text : Bytes} (hmode : Automaton.mode s = 9)
    (h : m.rest = text ++ more) (hpos : 0 < m.offset) (hne : text ≠ [])
    (htext : ∀ b ∈ text, isContentByte b = true) (hmore : ∀ b ∈ more.head?, b = quoteByte) :
    readToken s m = (m.token .content [] text, false) := by
  have hraw : (modeSymbols 9).contains .rawContent = false := by decide
  have hset : (modeSymbols 9).contains .content = true := by decide
  have hlen : contentLength (text ++ more) = text.length :=
    congrArg List.length (takeWhile_append_stop htext fun b hb => by simp [hmore b hb])
  refine readToken_of_lex? (w := []) ?_ (by decide)
  rw [hmode]
  refine lex?_of_tightSymbolAt text h (Mark.skipByteOrderMark_of_pos hpos) ?_
  cases text with
  | nil => exact absurd rfl hne
  | cons b text =>
    have hb := htext b List.mem_cons_self
    simp only [isContentByte, Bool.and_eq_true, bne_iff_ne, ne_eq] at hb
    rw [List.cons_append] at hlen ⊢
    simp [tightSymbolAt?, hraw, hset, hlen, hb]

theorem readToken_closingQuote (hmode : Automaton.mode s = 9) (h : m.rest = quoteByte :: more)
    (hpos : 0 < m.offset) : readToken s m = (m.token .closingQuote [] [quoteByte], false) := by
  have hraw : (modeSymbols 9).contains .rawContent = false := by decide
  have hset : (modeSymbols 9).contains .closingQuote = true := by decide
  refine readToken_of_lex? (w := []) ?_ (by decide)
  rw [hmode]
  refine lex?_of_tightSymbolAt [quoteByte] h (Mark.skipByteOrderMark_of_pos hpos) ?_
  simp [tightSymbolAt?, hraw, hset]

theorem readToken_rawContent {text : Bytes} (hmode : Automaton.mode s = 10)
    (h : m.rest = text ++ more) (hpos : 0 < m.offset)
    (htext : ∀ b ∈ text, b ≠ rawQuoteByte ∧ b ≠ 0) (hmore : ∀ b ∈ more.head?, b = rawQuoteByte) :
    readToken s m = (m.token .rawContent [] text, false) := by
  have hset : (modeSymbols 10).contains .rawContent = true := by decide
  have hlen : rawContentLength (text ++ more) = text.length := by
    rw [rawContentLength, takeWhile_append_stop (fun b hb => by simp [htext b hb])
      fun b hb => by simp [hmore b hb]]
  refine readToken_of_lex? (w := []) ?_ (by decide)
  rw [hmode]
  refine lex?_of_tightSymbolAt text h (Mark.skipByteOrderMark_of_pos hpos) ?_
  simp [tightSymbolAt?, hset, hlen]

end Read

end ImportGroups.Source
