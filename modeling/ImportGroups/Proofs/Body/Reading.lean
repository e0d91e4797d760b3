import ImportGroups.Proofs.Header.Reading

/-!
How the body of a file is read.

Behind its header a file goes on with items on lines of their own: declarations of functions,
variables, constants and types, and also import declarations and package clauses once more. Each of
them is gathered with the items before it, as those of the header are.
-/

namespace ImportGroups

open Text (Bytes)
open Header (Space Name LineBreak packageBytes spaceByte isBlankByte_spaceByte)

namespace Body

/-- What a declaration that belongs to no header declares. -/
inductive Kind where
  | function
  | var
  | const
  | newType

namespace Kind

def word : Kind → Bytes
  | function => Text.encodeUtf8 "func"
  | var => Text.encodeUtf8 "var"
  | const => Text.encodeUtf8 "const"
  | newType => Text.encodeUtf8 "type"

def rest : Kind → Bytes
  | function => Text.encodeUtf8 "() \x7b\x7d"
  | var => Text.encodeUtf8 " = 1"
  | const => Text.encodeUtf8 " = 1"
  | newType => Text.encodeUtf8 " int"

end Kind

/-- A complete declaration, as `func f() {}` or `var x = 1`. -/
structure Declaration where
  kind : Kind
  gap : Space
  name : Name

def Declaration.bytes (d : Declaration) : Bytes :=
  d.kind.word ++ (d.gap.bytes ++ (d.name.bytes ++ d.kind.rest))

inductive Item where
  | other (d : Declaration)
  | imports (d : Header.Declaration)
  | package (gap : Space) (name : Name)

def Item.bytes : Item → Bytes
  | other d => d.bytes
  | imports d => d.bytes
  | package gap name => packageBytes ++ (gap.bytes ++ name.bytes)

def itemBytes (items : List (Item × LineBreak)) : Bytes :=
  items.flatMap fun (x, w) => x.bytes ++ w.bytes

end Body

namespace Source

open Body (Kind Item)

variable {start : Mark} {k k' : Column} {n : Nat}

/-- A delimiter or a digit, with one space before it or none, where the text from `c` on is read up
to here. -/
theorem reads_sign {c : Mark} {w done more : Bytes} {b : UInt8} {t : Symbol} {target : State}
    (hmode : Automaton.mode k.state ∈ [0, 1, 2]) (hforms : Forms start t n k k') (hn : n ≤ 20)
    (hw : w ∈ [[], [spaceByte]]) (hpos : 0 < c.offset) (hmark : k.mark start = c.past done)
    (hrest : c.rest = done ++ (w ++ ([b] ++ more)))
    (hb : isBlankByte b = false ∧ b ≠ quoteByte ∧ b ≠ backslashByte)
    (hsymbol : symbolAt? (modeSymbols (Automaton.mode k.state)) (b :: more) = some (t, 1))
    (ht : t ≠ .identifier) (hshift : Automaton.actions k'.state t = [.shift target]) :
    ∃ token : Tree, token.Covers ((c.past done).past w) (c.past (done ++ (w ++ [b]))) [] ∧
      Reads start 1 k ((target, token) :: k') := by
  have hrest' : (k.mark start).rest = w ++ ([b] ++ more) := by rw [hmark, Mark.rest_past hrest]
  have hpos' : 0 < (k.mark start).offset := by
    rw [hmark, Mark.offset_past hrest]
    omega
  simp only [List.mem_cons, List.not_mem_nil, or_false] at hmode hw
  have htight : tightSymbolAt? (modeSymbols (Automaton.mode k.state)) (k.mark start).rest = none := by
    rcases hmode with hmode | hmode | hmode
    · rw [hmode, hrest']
      rcases hw with rfl | rfl
      · exact tightSymbolAt?_loose hb.2.1 hb.2.2
      · exact tightSymbolAt?_loose (by decide) (by decide)
    · rw [hmode]
      exact tightSymbolAt?_eq_none (by decide) _
    · rw [hmode]
      exact tightSymbolAt?_eq_none (by decide) _
  have hblank : ∀ c ∈ w, blankIn (Automaton.mode k.state) c = true := by
    intro c hc
    rcases hw with rfl | rfl
    · simp at hc
    · obtain rfl : c = spaceByte := by simpa using hc
      simp [blankIn, isBlankByte_spaceByte, show spaceByte ≠ lineFeed by decide]
  have hread :=
    readToken_sign hrest' (Mark.skipByteOrderMark_of_pos hpos') htight hblank hb.1 hsymbol ht
  refine ⟨_, ?_, .one (.of_forms ⟨_, hread⟩ rfl hforms hshift) hn
    (Mark.offset_lt_token hrest' (by simp))⟩
  rw [hmark, ← Mark.past_past, ← Mark.past_past]
  exact Tree.covers_token _ _ _ _

theorem symbolAt?_one {b : UInt8} (hb : isBlankByte b = true) (more : Bytes) :
    symbolAt? (modeSymbols 1) (0x31 :: b :: more) = some (.integer, 1) := by
  have hmem := mem_of_isBlankByte hb
  simp only [List.mem_cons, List.not_mem_nil, or_false] at hmem
  rcases hmem with rfl | rfl | rfl | rfl | rfl | rfl <;> cases more <;> rfl

def isOtherItem (p : Phrase) : Bool := p.isVisible && !(Tree.shownPhrases.contains p)

theorem Tree.others_of_label {t : Tree} {p : Phrase} (hlabel : t.label = .phrase p)
    (hp : isOtherItem p = true) : t.others = [t.start.toSpot] := by
  simp only [isOtherItem, shownPhrases, List.contains_cons, List.contains_nil, Bool.or_false,
    Bool.and_eq_true, Bool.not_eq_true', Bool.or_eq_false_iff, beq_eq_false_iff_ne] at hp
  obtain ⟨hvisible, hpackage, himport, -⟩ := hp
  refine others_of_item ?_ ?_
  · rw [isVisible, hlabel]
    exact hvisible
  · simp [isHeaderItem, isError, hlabel, hpackage, himport]

theorem newline_rule {s : State} {r : Rule} (h : (s, [.newline], r) ∈ Automaton.ruleEntries) :
    Automaton.actions s .newline = [.reduce r] :=
  Automaton.rule_entry h (List.mem_singleton_self _)

/-- A declaration of a kind that may also stand in a function counts as a statement. -/
theorem Closes.statement {k₁ : Column} {decl : Tree} {p : Phrase} {m b : Mark}
    (h : Closes start n k₁ ((976, decl) :: k)) (hk : k.state = 7) (hdecl : decl.Covers m b [])
    (hlabel : decl.label = .phrase p) (hp : isOtherItem p = true) :
    ∃ item, Closes start (n + 1) k₁ ((46, item) :: k) ∧ item.Holds [m.toSpot] [] := by
  have hrule : Automaton.actions 976 .newline = [.reduce ⟨.statement, 1, 0⟩] :=
    newline_rule (by decide)
  have hafter : Automaton.afterPhrase 7 .statement = 46 := Automaton.phrase_entry (by decide)
  obtain ⟨item, hitemLabel, hchildren, hitem, hforms⟩ :=
    forms_plain start k [(976, decl)] hrule (.one hdecl) (by decide)
  rw [hk, hafter] at hforms
  refine ⟨item, ⟨h.mode, h.forms.trans hforms⟩, ⟨_, _, hitem⟩, ?_⟩
  have hhidden : item.isVisible = false := by
    rw [Tree.isVisible, hitemLabel]
    rfl
  rw [Tree.others_of_hidden hhidden, hchildren]
  simp [Tree.others_of_label hlabel hp, hdecl.start]

/-- The states and phrases on the way through a declaration with a value, as the automaton has them. -/
structure Valued where
  begun : State
  named : State
  assigned : State
  listed : State
  specified : State
  spec : Phrase
  decl : Phrase
  named_mode : Automaton.mode named = 0 ∨ Automaton.mode named = 2
  assigned_mode : Automaton.mode assigned = 1 := by exact Automaton.mode_entry (by decide)
  assign : Automaton.actions named .assign = [.shift assigned] := by
    exact Automaton.shift_entry (by decide)
  integer : Automaton.actions assigned .integer = [.shift 523] := by
    exact Automaton.shift_entry (by decide)
  expression : Automaton.afterPhrase assigned .expression = 457 := by
    exact Automaton.phrase_entry (by decide)
  list : Automaton.afterPhrase assigned .expressionList = listed := by
    exact Automaton.phrase_entry (by decide)
  spec_rule : Automaton.actions listed .newline = [.reduce ⟨spec, 3, 0⟩] := by
    exact newline_rule (by decide)
  spec_after : Automaton.afterPhrase begun spec = specified := by
    exact Automaton.phrase_entry (by decide)
  decl_rule : Automaton.actions specified .newline = [.reduce ⟨decl, 2, 0⟩] := by
    exact newline_rule (by decide)
  decl_after : Automaton.afterPhrase 7 decl = 976 := by exact Automaton.phrase_entry (by decide)
  spec_plain : spec ∉ Tree.shownPhrases := by decide
  decl_plain : decl ∉ Tree.shownPhrases := by decide
  decl_other : isOtherItem decl = true := by decide

def valuedVar : Valued where
  begun := 1104
  named := 592
  assigned := 154
  listed := 1009
  specified := 979
  spec := .varSpec
  decl := .varDeclaration
  named_mode := .inl (Automaton.mode_entry (by decide))

def valuedConst : Valued where
  begun := 1162
  named := 454
  assigned := 153
  listed := 1007
  specified := 978
  spec := .constSpec
  decl := .constDeclaration
  named_mode := .inr (Automaton.mode_entry (by decide))

section Valued

variable (v : Valued) {word name : Tree} {m a b c : Mark}

/-- The sign and the number behind a name. -/
theorem reads_number {br : LineBreak} {more : Bytes} (hname : name.Covers b c [])
    (hpos : 0 < c.offset)
    (hrest : c.rest = [spaceByte, 0x3D, spaceByte, 0x31] ++ (br.bytes ++ more)) :
    ∃ sign one : Tree, ∃ d d' d'', sign.Covers d d' [] ∧
      one.Covers d'' (c.past [spaceByte, 0x3D, spaceByte, 0x31]) [] ∧
      Reads start 2 ((v.named, name) :: k)
        ((523, one) :: (v.assigned, sign) :: (v.named, name) :: k) := by
  let k₀ : Column := (v.named, name) :: k
  have hmark : k₀.mark start = c.past [] := hname.stop
  have hmode : Automaton.mode k₀.state = 0 ∨ Automaton.mode k₀.state = 2 := by
    simpa [k₀] using v.named_mode
  obtain ⟨sign, hsign, hreads⟩ := reads_sign (k := k₀) (c := c) (w := [spaceByte]) (b := 0x3D)
    (by simp only [List.mem_cons, List.not_mem_nil, or_false]; omega) (.refl k₀) (by decide)
    (by decide) hpos hmark hrest (by decide) (by rcases hmode with h | h <;> rw [h] <;> rfl)
    (by decide) v.assign
  let k₁ : Column := (v.assigned, sign) :: k₀
  obtain ⟨d, more', hbr⟩ : ∃ d more', br.bytes ++ more = d :: more' := by
    cases hw : br.bytes with
    | nil => exact absurd br.breaks (by simp [hw])
    | cons d ds => exact ⟨d, ds ++ more, rfl⟩
  have hblank : isBlankByte d = true := head?_lineBreak br more d (by simp [hbr])
  obtain ⟨one, hone, hreads₁⟩ := reads_sign (k := k₁) (c := c) (w := [spaceByte]) (b := 0x31)
    (by simp [k₁, v.assigned_mode]) (.refl k₁) (by decide) (by decide) hpos hsign.stop hrest
    (by decide) (by rw [Column.state_cons, v.assigned_mode, hbr]; exact symbolAt?_one hblank more')
    (by decide) v.integer
  exact ⟨sign, one, _, _, _, hsign, hone, hreads.trans hreads₁⟩

/-- From the number up to the declaration. -/
theorem forms_valued {sign one : Tree} {d d' d'' e : Mark} (hk : k.state = 7)
    (hword : word.Covers m a []) (hname : name.Covers b c []) (hsign : sign.Covers d d' [])
    (hone : one.Covers d'' e []) :
    ∃ decl : Tree, decl.label = .phrase v.decl ∧ decl.Covers m e [] ∧
      Forms start .newline (1 + (1 + (1 + 1)))
        ((523, one) :: (v.assigned, sign) :: (v.named, name) :: (v.begun, word) :: k)
        ((976, decl) :: k) := by
  let k₁ : Column := (v.assigned, sign) :: (v.named, name) :: (v.begun, word) :: k
  obtain ⟨expression, -, -, hexpr, hf₁⟩ := forms_plain start k₁ [(523, one)]
    (newline_rule (s := 523) (r := ⟨.expression, 1, 0⟩) (by decide)) (.one hone) (by decide)
  rw [Column.state_cons, v.expression] at hf₁
  obtain ⟨list, -, -, hlisted, hf₂⟩ := forms_plain start k₁ [(457, expression)]
    (newline_rule (s := 457) (r := ⟨.expressionList, 1, 0⟩) (by decide)) (.one hexpr) (by decide)
  rw [Column.state_cons, v.list] at hf₂
  obtain ⟨spec, -, -, hspecified, hf₃⟩ := forms_plain start ((v.begun, word) :: k)
    [(v.listed, list), (v.assigned, sign), (v.named, name)] v.spec_rule
    (.cons hname (.cons hsign (.one hlisted))) v.spec_plain
  rw [Column.state_cons, v.spec_after] at hf₃
  obtain ⟨decl, hlabel, -, hdeclared, hf₄⟩ := forms_plain start k
    [(v.specified, spec), (v.begun, word)] v.decl_rule (.cons hword (.one hspecified)) v.decl_plain
  rw [hk, v.decl_after] at hf₄
  exact ⟨decl, hlabel, hdeclared, hf₁.trans (hf₂.trans (hf₃.trans hf₄))⟩

theorem reads_value {br : LineBreak} {more : Bytes} (hk : k.state = 7)
    (hword : word.Covers m a []) (hname : name.Covers b c []) (hpos : 0 < c.offset)
    (hrest : c.rest = [spaceByte, 0x3D, spaceByte, 0x31] ++ (br.bytes ++ more)) :
    ∃ k₁ item, Reads start 2 ((v.named, name) :: (v.begun, word) :: k) k₁ ∧
      Closes start 5 k₁ ((46, item) :: k) ∧ item.Holds [m.toSpot] [] ∧
      k₁.mark start = c.past [spaceByte, 0x3D, spaceByte, 0x31] := by
  obtain ⟨sign, one, _, _, _, hsign, hone, hreads⟩ := reads_number v hname hpos hrest
  obtain ⟨decl, hlabel, hdecl, hforms⟩ := forms_valued v hk hword hname hsign hone
  have hmode : Automaton.mode 523 = 8 := Automaton.mode_entry (by decide)
  have hcloses := Closes.statement ⟨by rw [Column.state_cons, hmode]; decide, hforms⟩ hk hdecl hlabel
    v.decl_other
  obtain ⟨item, hitem, hholds⟩ := hcloses
  exact ⟨_, item, hreads, hitem, hholds, hone.stop⟩

end Valued

def intBytes : Bytes := Text.encodeUtf8 "int"

section TypeName

variable {word name int : Tree} {m a b c : Mark}

/-- The type behind a name. -/
theorem reads_int {br : LineBreak} {more : Bytes} (hname : name.Covers b c []) (hpos : 0 < c.offset)
    (hrest : c.rest = ([spaceByte] ++ intBytes) ++ (br.bytes ++ more)) :
    ∃ int : Tree, ∃ d, int.Covers d (c.past ([spaceByte] ++ intBytes)) [] ∧
      Reads start 1 ((660, name) :: k) ((857, int) :: (660, name) :: k) := by
  have hmode : Automaton.mode 660 = 0 := Automaton.mode_entry (by decide)
  have hisWord : isWord intBytes = true := by decide
  have hsymbol : wordSymbol 660 intBytes = .identifier := rfl
  have hshift : Automaton.actions 660 .identifier = [.shift 857] := Automaton.shift_entry (by decide)
  let k₀ : Column := (660, name) :: k
  have hmark : k₀.mark start = c := hname.stop
  have hsplit : (k₀.mark start).rest = [spaceByte] ++ (intBytes ++ (br.bytes ++ more)) := by
    rw [hmark, hrest, List.append_assoc]
  have htight : tightSymbolAt? (modeSymbols (Automaton.mode k₀.state)) (k₀.mark start).rest = none := by
    rw [Column.state_cons, hmode, hsplit]
    exact tightSymbolAt?_loose (by decide) (by decide)
  have hblank : ∀ b ∈ [spaceByte], blankIn (Automaton.mode k₀.state) b = true := by
    intro b hb
    rw [Column.state_cons, hmode, blankIn_eq (by decide), List.mem_singleton.mp hb,
      isBlankByte_spaceByte]
  obtain ⟨_, hread⟩ := readToken_word hsplit
    (Mark.skipByteOrderMark_of_pos (by rw [hmark]; exact hpos)) htight
    (by rw [Column.state_cons, hmode]; decide) hblank hisWord
    fun b hb => isWordEnd_of_isBlankByte (head?_lineBreak br more b hb)
  rw [Column.state_cons, hsymbol] at hread
  refine ⟨(k₀.mark start).token .identifier [spaceByte] intBytes, c.past [spaceByte], ?_,
    .one (.of_forms ⟨_, hread⟩ rfl (.refl k₀) hshift) (by decide)
      (Mark.offset_lt_token hsplit (by decide))⟩
  rw [hmark, ← Mark.past_past]
  exact Tree.covers_token _ _ _ _

/-- From the type up to the declaration. -/
theorem forms_typeDeclaration {d e : Mark} (hk : k.state = 7) (hword : word.Covers m a [])
    (hname : name.Covers b c []) (hint : int.Covers d e []) :
    ∃ decl : Tree, decl.label = .phrase .typeDeclaration ∧ decl.Covers m e [] ∧
      Forms start .newline (1 + (1 + 1)) ((857, int) :: (660, name) :: (1105, word) :: k)
        ((976, decl) :: k) := by
  have hsimple : Automaton.actions 857 .newline = [.reduce ⟨.simpleType, 1, -1⟩] :=
    newline_rule (by decide)
  have hspec : Automaton.actions 941 .newline = [.reduce ⟨.typeSpec, 2, 0⟩] :=
    newline_rule (by decide)
  have hdecl : Automaton.actions 980 .newline = [.reduce ⟨.typeDeclaration, 2, 0⟩] :=
    newline_rule (by decide)
  have hafterSimple : Automaton.afterPhrase 660 .simpleType = 941 :=
    Automaton.phrase_entry (by decide)
  have hafterSpec : Automaton.afterPhrase 1105 .typeSpec = 980 := Automaton.phrase_entry (by decide)
  have hafterDecl : Automaton.afterPhrase 7 .typeDeclaration = 976 :=
    Automaton.phrase_entry (by decide)
  obtain ⟨simple, -, -, hsimpleCovers, hf₁⟩ := forms_plain start ((660, name) :: (1105, word) :: k)
    [(857, int)] hsimple (.one hint) (by decide)
  rw [Column.state_cons, hafterSimple] at hf₁
  obtain ⟨spec, -, -, hspecified, hf₂⟩ := forms_plain start ((1105, word) :: k)
    [(941, simple), (660, name)] hspec (.cons hname (.one hsimpleCovers)) (by decide)
  rw [Column.state_cons, hafterSpec] at hf₂
  obtain ⟨decl, hlabel, -, hdeclared, hf₃⟩ := forms_plain start k [(980, spec), (1105, word)] hdecl
    (.cons hword (.one hspecified)) (by decide)
  rw [hk, hafterDecl] at hf₃
  exact ⟨decl, hlabel, hdeclared, hf₁.trans (hf₂.trans hf₃)⟩

theorem reads_typeName {br : LineBreak} {more : Bytes} (hk : k.state = 7)
    (hword : word.Covers m a []) (hname : name.Covers b c []) (hpos : 0 < c.offset)
    (hrest : c.rest = ([spaceByte] ++ intBytes) ++ (br.bytes ++ more)) :
    ∃ k₁ item, Reads start 1 ((660, name) :: (1105, word) :: k) k₁ ∧
      Closes start 4 k₁ ((46, item) :: k) ∧ item.Holds [m.toSpot] [] ∧
      k₁.mark start = c.past ([spaceByte] ++ intBytes) := by
  have hmode : Automaton.mode 857 = 4 := Automaton.mode_entry (by decide)
  obtain ⟨int, _, hint, hreads⟩ := reads_int hname hpos hrest
  obtain ⟨decl, hlabel, hdecl, hforms⟩ := forms_typeDeclaration hk hword hname hint
  obtain ⟨item, hitem, hholds⟩ := Closes.statement
    ⟨by rw [Column.state_cons, hmode]; decide, hforms⟩ hk hdecl hlabel (by decide)
  exact ⟨_, item, hreads, hitem, hholds, hint.stop⟩

end TypeName

def emptyFunction : Bytes := [0x28, 0x29, spaceByte, 0x7B, 0x7D]

section FunctionRest

variable {word name : Tree} {m a b c : Mark} {more : Bytes}

theorem reads_parameters (hname : name.Covers b c []) (hpos : 0 < c.offset)
    (hrest : c.rest = emptyFunction ++ more) :
    ∃ k₁ : Column, ∃ parameters : Tree, ∃ d e, parameters.Covers d e [] ∧
      Reads start 2 ((1109, name) :: k) k₁ ∧ k₁.state = 853 ∧
      k₁.mark start = c.past [0x28, 0x29] ∧
      Forms start .leftBrace 1 k₁ ((512, parameters) :: (1109, name) :: k) := by
  have hmode₀ : Automaton.mode 1109 = 0 := Automaton.mode_entry (by decide)
  have hmode₁ : Automaton.mode 572 = 0 := Automaton.mode_entry (by decide)
  have hopen : Automaton.actions 1109 .leftParen = [.shift 572] := Automaton.shift_entry (by decide)
  have hclose : Automaton.actions 572 .rightParen = [.shift 853] := Automaton.shift_entry (by decide)
  have hparameters : Automaton.actions 853 .leftBrace = [.reduce ⟨.parameterList, 2, 0⟩] :=
    Automaton.rule_entry (by decide) (List.mem_singleton_self _)
  have hafter : Automaton.afterPhrase 1109 .parameterList = 512 :=
    Automaton.phrase_entry (by decide)
  let k₀ : Column := (1109, name) :: k
  have hmark : k₀.mark start = c.past [] := hname.stop
  obtain ⟨t₁, ht₁, hreads₁⟩ := reads_sign (k := k₀) (c := c) (w := []) (b := 0x28)
    (by simp [k₀, hmode₀]) (.refl k₀) (by decide) (by decide) hpos hmark hrest (by decide)
    (by rw [Column.state_cons, hmode₀]; rfl) (by decide) hopen
  let k₁ : Column := (572, t₁) :: k₀
  obtain ⟨t₂, ht₂, hreads₂⟩ := reads_sign (k := k₁) (c := c) (w := []) (b := 0x29)
    (by simp [k₁, hmode₁]) (.refl k₁) (by decide) (by decide) hpos ht₁.stop hrest (by decide)
    (by rw [Column.state_cons, hmode₁]; rfl) (by decide) hclose
  obtain ⟨parameters, -, -, hcovers, hforms⟩ := forms_plain start k₀ [(853, t₂), (572, t₁)]
    hparameters (.cons ht₁ (.one ht₂)) (by decide)
  rw [Column.state_cons, hafter] at hforms
  exact ⟨_, parameters, _, _, hcovers, hreads₁.trans hreads₂, rfl, ht₂.stop, hforms⟩

theorem reads_functionBlock {k₁ : Column} {parameters : Tree} (hpos : 0 < c.offset)
    (hrest : c.rest = emptyFunction ++ more) (hstate : k₁.state = 853)
    (hmark : k₁.mark start = c.past [0x28, 0x29])
    (hforms : Forms start .leftBrace 1 k₁ ((512, parameters) :: k)) :
    ∃ k₂ : Column, ∃ block : Tree, ∃ d, block.Covers d (c.past emptyFunction) [] ∧
      Reads start 2 k₁ k₂ ∧ k₂.state = 1138 ∧ k₂.mark start = c.past emptyFunction ∧
      Forms start .newline 1 k₂ ((1116, block) :: (512, parameters) :: k) := by
  have hmode₁ : Automaton.mode 853 = 2 := Automaton.mode_entry (by decide)
  have hmode₂ : Automaton.mode 82 = 1 := Automaton.mode_entry (by decide)
  have hbegin : Automaton.actions 512 .leftBrace = [.shift 82] := Automaton.shift_entry (by decide)
  have hend : Automaton.actions 82 .rightBrace = [.shift 1138] := Automaton.shift_entry (by decide)
  have hblock : Automaton.actions 1138 .newline = [.reduce ⟨.block, 2, 0⟩] :=
    newline_rule (by decide)
  have hafter : Automaton.afterPhrase 512 .block = 1116 := Automaton.phrase_entry (by decide)
  obtain ⟨t₁, ht₁, hreads₁⟩ := reads_sign (k := k₁) (c := c) (w := [spaceByte]) (b := 0x7B)
    (by simp [hstate, hmode₁]) hforms (by decide) (by decide) hpos hmark hrest (by decide)
    (by rw [hstate, hmode₁]; rfl) (by decide) hbegin
  let k₂ : Column := (82, t₁) :: (512, parameters) :: k
  obtain ⟨t₂, ht₂, hreads₂⟩ := reads_sign (k := k₂) (c := c) (w := []) (b := 0x7D)
    (by simp [k₂, hmode₂]) (.refl k₂) (by decide) (by decide) hpos ht₁.stop hrest (by decide)
    (by rw [Column.state_cons, hmode₂]; cases more <;> rfl) (by decide) hend
  obtain ⟨block, -, -, hcovers, hforms'⟩ := forms_plain start ((512, parameters) :: k)
    [(1138, t₂), (82, t₁)] hblock (.cons ht₁ (.one ht₂)) (by decide)
  rw [Column.state_cons, hafter] at hforms'
  exact ⟨_, block, _, hcovers, hreads₁.trans hreads₂, rfl, ht₂.stop, hforms'⟩

theorem reads_functionRest (hk : k.state = 7) (hword : word.Covers m a [])
    (hname : name.Covers b c []) (hpos : 0 < c.offset) (hrest : c.rest = emptyFunction ++ more) :
    ∃ k₁ item, Reads start 4 ((1109, name) :: (1163, word) :: k) k₁ ∧
      Closes start 2 k₁ ((23, item) :: k) ∧ item.Holds [m.toSpot] [] ∧
      k₁.mark start = c.past emptyFunction := by
  have hmode : Automaton.mode 1138 = 2 := Automaton.mode_entry (by decide)
  have hdecl : Automaton.actions 1116 .newline = [.reduce ⟨.functionDeclaration, 4, 0⟩] :=
    newline_rule (by decide)
  have hafter : Automaton.afterPhrase 7 .functionDeclaration = 23 :=
    Automaton.phrase_entry (by decide)
  obtain ⟨k₁, parameters, _, _, hparameters, hreads₁, hstate₁, hmark₁, hforms₁⟩ :=
    reads_parameters (k := (1163, word) :: k) hname hpos hrest
  obtain ⟨k₂, block, _, hblock, hreads₂, hstate₂, hmark₂, hforms₂⟩ :=
    reads_functionBlock hpos hrest hstate₁ hmark₁ hforms₁
  obtain ⟨decl, hlabel, -, hdeclared, hforms₃⟩ := forms_plain start k
    [(1116, block), (512, parameters), (1109, name), (1163, word)] hdecl
    (.cons hword (.cons hname (.cons hparameters (.one hblock)))) (by decide)
  rw [hk, hafter] at hforms₃
  refine ⟨k₂, decl, hreads₁.trans hreads₂, ⟨by rw [hstate₂, hmode]; decide, hforms₂.trans hforms₃⟩,
    ⟨⟨_, _, hdeclared⟩, ?_⟩, hmark₂⟩
  rw [Tree.others_of_label hlabel (by decide), hdeclared.start]

end FunctionRest

def kindTable : Kind → Symbol × State × State
  | .function => (.funcWord, 1163, 1109)
  | .var => (.varWord, 1104, 592)
  | .const => (.constWord, 1162, 454)
  | .newType => (.typeWord, 1105, 660)

theorem reads_kindRest (start : Mark) (kind : Kind) {word name : Tree} {m a b c : Mark}
    {br : LineBreak} {more : Bytes} (hk : k.state = 7) (hword : word.Covers m a []) (hname : name.Covers b c [])
    (hpos : 0 < c.offset) (hrest : c.rest = kind.rest ++ (br.bytes ++ more)) :
    ∃ n l k₁ s item, n ≤ 20 ∧ s ∈ [23, 46] ∧
      Reads start l (((kindTable kind).2.2, name) :: ((kindTable kind).2.1, word) :: k) k₁ ∧
      Closes start n k₁ ((s, item) :: k) ∧ item.Holds [m.toSpot] [] ∧
      k₁.mark start = c.past kind.rest := by
  have hvalue : Kind.var.rest = [spaceByte, 0x3D, spaceByte, 0x31] := by decide +kernel
  cases kind with
  | function =>
    have hbytes : Kind.function.rest = emptyFunction := by decide +kernel
    rw [hbytes] at hrest ⊢
    obtain ⟨k₁, item, hreads, hcloses, hholds, hmark⟩ :=
      reads_functionRest hk hword hname hpos hrest
    exact ⟨2, _, k₁, 23, item, by decide, by decide, hreads, hcloses, hholds, hmark⟩
  | var =>
    rw [hvalue] at hrest ⊢
    obtain ⟨k₁, item, hreads, hcloses, hholds, hmark⟩ :=
      reads_value valuedVar hk hword hname hpos hrest
    exact ⟨5, _, k₁, 46, item, by decide, by decide, hreads, hcloses, hholds, hmark⟩
  | const =>
    rw [show Kind.const.rest = _ from hvalue] at hrest ⊢
    obtain ⟨k₁, item, hreads, hcloses, hholds, hmark⟩ :=
      reads_value valuedConst hk hword hname hpos hrest
    exact ⟨5, _, k₁, 46, item, by decide, by decide, hreads, hcloses, hholds, hmark⟩
  | newType =>
    have hbytes : Kind.newType.rest = [spaceByte] ++ intBytes := by decide +kernel
    rw [hbytes] at hrest ⊢
    obtain ⟨k₁, item, hreads, hcloses, hholds, hmark⟩ := reads_typeName hk hword hname hpos hrest
    exact ⟨4, _, k₁, 46, item, by decide, by decide, hreads, hcloses, hholds, hmark⟩

theorem head?_kindRest (kind : Kind) (more : Bytes) :
    ∀ b ∈ (kind.rest ++ more).head?, isWordEnd b = true := by
  have hall : ∀ kind : Kind, kind.rest ≠ [] ∧ ∀ b ∈ kind.rest.head?, isWordEnd b = true := by
    rintro (_ | _ | _ | _) <;> decide +kernel
  obtain ⟨hne, hhead⟩ := hall kind
  intro b hb
  cases hr : kind.rest with
  | nil => exact absurd hr hne
  | cons c cs =>
    obtain rfl : c = b := by simpa [hr] using hb
    exact hhead c (by simp [hr])

section Items

variable {os : List Spot} {es : List Event} {m : Mark} {br : LineBreak} {more : Bytes}

theorem Gathered.reads_other {d : Body.Declaration} (h : Gathered start k os es)
    (hat : (k.mark start).Before m) (hrest : m.rest = d.bytes ++ (br.bytes ++ more))
    (hmore : ∀ b ∈ more.head?, b ≠ lineFeed) :
    ∃ l k₁, Reads start l k k₁ ∧ Gathered start k₁ (os ++ [m.toSpot]) es ∧
      (k₁.mark start).Before ((m.past d.bytes).past br.bytes) := by
  obtain ⟨kind, gap, name⟩ := d
  have htable : ∀ kind : Kind, isWord kind.word = true ∧
      Symbol.ofWord? kind.word = some (kindTable kind).1 ∧ (kindTable kind).1 ∈ itemStarts ∧
      (7, (kindTable kind).1, (kindTable kind).2.1) ∈ Automaton.shiftEntries ∧
      (kindTable kind).2.1 ∈ namingStates ∧
      ((kindTable kind).2.1, .identifier, (kindTable kind).2.2) ∈ Automaton.shiftEntries := by
    rintro (_ | _ | _ | _) <;> decide
  obtain ⟨hisWord, hsymbol, hstarts, hshift, hnaming, hshift'⟩ := htable kind
  have hwordRest : m.rest = kind.word ++ (gap.bytes ++ (name.bytes ++ (kind.rest ++
      (br.bytes ++ more)))) := by
    simpa [Body.Declaration.bytes] using hrest
  obtain ⟨items, word, hitems, hword, htakes⟩ := h.reads_word hat hwordRest hisWord
    (fun b hb => isWordEnd_of_isBlankByte (head?_space gap _ b hb)) hsymbol hstarts
    (Automaton.shift_entry hshift)
  have hle := htakes.le_offset
  have hpos := h.pos
  have hstop : Column.mark start [((kindTable kind).2.1, word), (7, items)] = m.past kind.word :=
    hword.stop
  have hpos₁ : 0 < (m.past kind.word).offset := by
    rw [← hstop]
    omega
  obtain ⟨label, hlabel, hreads⟩ := reads_introduced (k := [((kindTable kind).2.1, word), (7, items)])
    hnaming (by rw [hstop]; exact hpos₁) (by rw [hstop]; exact Mark.rest_past hwordRest)
    (head?_kindRest kind _) (Automaton.shift_entry hshift')
  rw [hstop, Mark.past_past, Mark.past_past] at hlabel
  have hle' := hreads.le_offset
  have hnameStop : label.stop = m.past (kind.word ++ (gap.bytes ++ name.bytes)) := hlabel.stop
  have hrest' : (m.past (kind.word ++ (gap.bytes ++ name.bytes))).rest =
      kind.rest ++ (br.bytes ++ more) := by
    apply Mark.rest_past
    simpa using hwordRest
  obtain ⟨n, l, k₁, s, item, hn, hs, hkind, hcloses, hholds, hmark⟩ := reads_kindRest start kind
    (rfl : Column.state [(7, items)] = 7) hword hlabel
    (by rw [← hnameStop]; simp only [Column.mark_cons] at hle hle'; omega) hrest'
  have hle'' := hkind.le_offset
  have hend : k₁.mark start = m.past (Body.Declaration.bytes ⟨kind, gap, name⟩) := by
    rw [hmark, Mark.past_past]
    simp [Body.Declaration.bytes]
  obtain ⟨k₂, hline, hgathered, hbefore⟩ := hcloses.gathers hn hs hitems hholds
    (by simp only [Column.mark_cons] at hle hle' hle''; omega)
    (by rw [hend]; exact Mark.rest_past hrest) hmore
  rw [hend] at hbefore
  exact ⟨_, k₂, htakes.trans (hreads.trans (hkind.trans hline)), by simpa using hgathered, hbefore⟩

theorem Gathered.reads_clause {gap : Space} {name : Name} (h : Gathered start k os es)
    (hat : (k.mark start).Before m)
    (hrest : m.rest = (packageBytes ++ (gap.bytes ++ name.bytes)) ++ (br.bytes ++ more))
    (hmore : ∀ b ∈ more.head?, b ≠ lineFeed) :
    ∃ l k₁, Reads start l k k₁ ∧ Gathered start k₁ os (es ++ [packageEvent m gap name]) ∧
      (k₁.mark start).Before
        ((m.past (packageBytes ++ (gap.bytes ++ name.bytes))).past br.bytes) := by
  have hshift : Automaton.actions 7 .packageWord = [.shift 2] := Automaton.shift_entry (by decide)
  have hafter : Automaton.afterPhrase 7 .packageClause = 23 := Automaton.phrase_entry (by decide)
  have hwordRest : m.rest = packageBytes ++ (gap.bytes ++ (name.bytes ++ (br.bytes ++ more))) := by
    simpa using hrest
  obtain ⟨items, word, hitems, hword, htakes⟩ := h.reads_word hat hwordRest
    Header.isWord_packageBytes (fun b hb => isWordEnd_of_isBlankByte (head?_space gap _ b hb))
    (by decide) (by decide) hshift
  have hle := htakes.le_offset
  have hpos := h.pos
  have hwordStop : word.stop = m.past packageBytes := hword.stop
  obtain ⟨k₁, clause, hreads, hpending, hholds, hmark, -⟩ := reads_packageName start [(7, items)] hword
    (by rw [← hwordStop]; simp only [Column.mark_cons] at hle; omega) hwordRest
    fun b hb => isWordEnd_of_isBlankByte (head?_lineBreak br more b hb)
  rw [Column.state_cons, hafter] at hpending
  have hle' := hreads.le_offset
  obtain ⟨k₂, hline, hgathered, hbefore⟩ := (hpending.closes (by decide)).gathers (by decide)
    (by decide) hitems hholds (by omega) (by rw [hmark]; exact Mark.rest_past hrest) hmore
  rw [hmark] at hbefore
  exact ⟨_, k₂, htakes.trans (hreads.trans hline), by simpa using hgathered, hbefore⟩

def itemSpots (m : Mark) : Item → List Spot
  | .other _ => [m.toSpot]
  | _ => []

def itemEvents (m : Mark) : Item → List Event
  | .other _ => []
  | .imports d => declEvents m d
  | .package gap name => [packageEvent m gap name]

theorem Gathered.reads_item {x : Item} (h : Gathered start k os es)
    (hat : (k.mark start).Before m) (hrest : m.rest = x.bytes ++ (br.bytes ++ more))
    (hmore : ∀ b ∈ more.head?, b ≠ lineFeed) :
    ∃ l k₁, Reads start l k k₁ ∧ Gathered start k₁ (os ++ itemSpots m x) (es ++ itemEvents m x) ∧
      (k₁.mark start).Before ((m.past x.bytes).past br.bytes) := by
  cases x with
  | other d => simpa [itemSpots, itemEvents, Item.bytes] using h.reads_other hat hrest hmore
  | imports d => simpa [itemSpots, itemEvents, Item.bytes] using h.reads_declaration hat hrest hmore
  | package gap name => simpa [itemSpots, itemEvents, Item.bytes] using h.reads_clause hat hrest hmore

def itemsShow (m : Mark) : List (Item × LineBreak) → List Spot × List Event
  | [] => ([], [])
  | (x, w) :: items =>
    let later := itemsShow ((m.past x.bytes).past w.bytes) items
    (itemSpots m x ++ later.1, itemEvents m x ++ later.2)

theorem head?_item (x : Item) (more : Bytes) :
    ∀ b ∈ (x.bytes ++ more).head?, b ≠ lineFeed := by
  cases x with
  | other d =>
    have hword : ∀ kind : Kind, isWord kind.word = true := by
      rintro (_ | _ | _ | _) <;> decide
    rw [Item.bytes, Body.Declaration.bytes, List.append_assoc]
    exact head?_word (hword d.kind) _
  | imports d => exact head?_declaration d more
  | package gap name =>
    rw [Item.bytes, List.append_assoc]
    exact head?_word Header.isWord_packageBytes _

theorem head?_itemBytes (items : List (Item × LineBreak)) :
    ∀ b ∈ (Body.itemBytes items).head?, b ≠ lineFeed := by
  cases items with
  | nil => simp [Body.itemBytes]
  | cons x items =>
    rw [Body.itemBytes, List.flatMap_cons, List.append_assoc]
    exact head?_item x.1 _

theorem Gathered.reads_items {items : List (Item × LineBreak)} (h : Gathered start k os es)
    (hat : (k.mark start).Before m) (hrest : m.rest = Body.itemBytes items) :
    ∃ l k₁, Reads start l k k₁ ∧
      Gathered start k₁ (os ++ (itemsShow m items).1) (es ++ (itemsShow m items).2) ∧
      (k₁.mark start).Before (m.past (Body.itemBytes items)) := by
  induction items generalizing k os es m with
  | nil => exact ⟨0, k, .refl k, by simpa [itemsShow] using h, hat⟩
  | cons x items ih =>
    obtain ⟨x, w⟩ := x
    have hbytes : Body.itemBytes ((x, w) :: items) =
        x.bytes ++ (w.bytes ++ Body.itemBytes items) := by
      simp [Body.itemBytes]
    rw [hbytes] at hrest ⊢
    obtain ⟨l, k₁, hreads, hgathered, hat₁⟩ := h.reads_item hat hrest (head?_itemBytes items)
    obtain ⟨l', k₂, hreads', hgathered', hat₂⟩ :=
      ih hgathered hat₁ (Mark.rest_past (Mark.rest_past hrest))
    refine ⟨_, k₂, hreads.trans hreads', by simpa [itemsShow] using hgathered', ?_⟩
    rwa [← Mark.past_past, ← Mark.past_past]

end Items

end Source

end ImportGroups
