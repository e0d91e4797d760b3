import ImportGroups.Proofs.Soundness.Spelling

/-!
Tokens fit their source.

A token lies behind the mark from which it is read, and a quote or a closing parenthesis among the
tokens is the byte that stands there. A word is never one of these.
-/

namespace ImportGroups.Source

open Text (Bytes)

/-- If what is found at the head of a text is a quote or a closing parenthesis then the text starts
with it. -/
def ReadsSigns (bs : Bytes) (x? : Option (Symbol × Nat)) : Prop :=
  ∀ x ∈ x?, ∀ b ∈ x.1.signByte?, bs.head? = some b ∧ x.2 = 1

namespace ReadsSigns

variable {bs : Bytes} {x? y? : Option (Symbol × Nat)} {s : Symbol} {n : Nat}

theorem none : ReadsSigns bs none := by simp [ReadsSigns]

theorem plain (h : s.signByte? = .none) : ReadsSigns bs (some (s, n)) := by
  simp [ReadsSigns, h]

theorem ite {p : Prop} [Decidable p] (hx : ReadsSigns bs x?) (hy : ReadsSigns bs y?) :
    ReadsSigns bs (if p then x? else y?) := by
  split
  · exact hx
  · exact hy

theorem or (hx : ReadsSigns bs x?) (hy : ReadsSigns bs y?) : ReadsSigns bs (x?.or y?) := by
  cases x? with
  | none => exact hy
  | some x => exact hx

theorem number (bs : Bytes) : ReadsSigns bs (numberAt? bs) :=
  .ite (plain rfl) (.ite (plain rfl) (.ite (plain rfl) none))

theorem operator (set : SymbolSet) (bs : Bytes) : ReadsSigns bs (operatorAt? set bs) := by
  intro x hx b hb
  obtain ⟨⟨spelling, s⟩, hfind, rfl⟩ := Option.map_eq_some_iff.mp hx
  obtain rfl : spelling = [b] := (spellings_fit.1 _ (List.mem_of_find?_eq_some hfind)).1 b hb
  have hfits := List.find?_some hfind
  cases bs with
  | nil => simp at hfits
  | cons c cs =>
    simp only [List.isPrefixOf_cons_cons, Bool.and_eq_true, beq_iff_eq] at hfits
    exact ⟨by rw [hfits.1.1]; rfl, rfl⟩

theorem symbolAt (set : SymbolSet) (bs : Bytes) : ReadsSigns bs (symbolAt? set bs) := by
  cases bs with
  | nil => exact .ite (plain rfl) (.ite (plain rfl) none)
  | cons b bs =>
    refine .ite (.ite (plain rfl) none) (.ite (.ite (plain rfl) none) ?_)
    refine .ite (plain rfl) (.ite (plain rfl) (.or (.ite (number _) none) ?_))
    exact .or (.ite (plain rfl) none) (operator set _)

theorem tightSymbolAt (set : SymbolSet) (bs : Bytes) :
    ReadsSigns bs (tightSymbolAt? set bs) := by
  unfold tightSymbolAt?
  refine .ite (plain rfl) ?_
  split
  · rename_i hquote
    rintro x ⟨⟩ b ⟨⟩
    simp only [Bool.and_eq_true, beq_iff_eq] at hquote
    exact ⟨hquote.2, rfl⟩
  · exact .ite (plain rfl) (.ite (plain rfl) none)

end ReadsSigns

variable {src : Bytes} {m : Mark}

/-- What stands between two marks behind `m`, if it is a token with this symbol. -/
structure Lexed.Fits (src : Bytes) (m : Mark) (l : Lexed) : Prop where
  start : l.start.On src
  stop : l.stop.On src
  behind : m.offset ≤ l.start.offset
  le : l.start.offset ≤ l.stop.offset
  sign : ∀ b ∈ l.symbol.signByte?,
    src[l.start.offset]? = some b ∧ l.stop.offset = l.start.offset + 1

theorem Lexed.fits_advance {start : Mark} {x : Symbol × Nat} (hstart : start.On src)
    (hle : m.offset ≤ start.offset) {x? : Option (Symbol × Nat)} (hx : x ∈ x?)
    (hsigns : ReadsSigns start.rest x?) : Fits src m ⟨x.1, start, start.advance x.2⟩ := by
  have hstop := hstart.advance x.2
  refine ⟨hstart, hstop.1, hle, hstop.2, fun b hb => ?_⟩
  obtain ⟨hhead, hlength⟩ := hsigns x hx b hb
  have hrest : start.rest ≠ [] := by rintro hnil; simp [hnil] at hhead
  refine ⟨?_, ?_⟩
  · rw [hstart.2, List.head?_drop] at hhead
    exact hhead
  · show (start.advance x.2).offset = start.offset + 1
    rw [hlength]
    exact Mark.offset_step hrest

theorem Mark.On.lex {set : SymbolSet} (h : m.On src) {l : Lexed} (hl : m.lex? set = some l) :
    l.Fits src m := by
  have hbom := h.skipByteOrderMark
  unfold Mark.lex? at hl
  dsimp only at hl
  split at hl
  · rename_i s n htight
    cases hl
    exact Lexed.fits_advance (x := (s, n)) hbom.1 hbom.2 htight (.tightSymbolAt set _)
  · obtain ⟨x, hx, rfl⟩ := Option.map_eq_some_iff.mp hl
    have hstart := hbom.1.skipBlanks (!set.contains .newline)
    exact Lexed.fits_advance hstart.1 (Nat.le_trans hbom.2 hstart.2) hx (.symbolAt set _)

namespace Tree

/-- The tree is a token that was read behind the offset `a`, or characters that start none. -/
structure IsToken (src : Bytes) (a : Nat) (t : Tree) : Prop where
  sound : t.Sound src
  behind : a ≤ t.start.offset
  clear : Clear src a t.start.offset
  children : t.children = []
  extra : t.extra = false
  missing : t.missing = false
  label : t.label = .error ∨ ∃ s, t.label = .token s
  spelled : ∀ s, t.label = .token s → s.Spelled src t.start.offset t.stop.offset

theorem isToken_leaf {s : Symbol} {l : Lexed} (h : l.Fits src m)
    (hclear : Clear src m.offset l.start.offset) (hspelled : s.Spelled src l.start.offset l.stop.offset)
    (hs : s.signByte? = l.symbol.signByte? ∨ s.signByte? = none) :
    (leaf s m.offset l.start l.stop).IsToken src m.offset := by
  have hshaped : (leaf s m.offset l.start l.stop).IsTokenOf src s := by
    refine ⟨rfl, fun b hb => .inl ?_⟩
    rcases hs with hs | hs <;> rw [hs] at hb
    · obtain ⟨hbyte, hstop⟩ := h.sign b hb
      exact ⟨rfl, hbyte, hstop⟩
    · cases hb
  refine ⟨.intro h.start h.stop h.le rfl hshaped (by simp [leaf]), h.behind, hclear, rfl, rfl, rfl,
    .inr ⟨s, rfl⟩, ?_⟩
  rintro _ ⟨⟩
  exact hspelled

theorem isToken_unknown (h : m.On src) :
    (unknown m.offset m.unknown.1 m.unknown.2).IsToken src m.offset := by
  obtain ⟨hstart, hstop, hbehind, hle⟩ := h.unknown
  have hclear := (Mark.clear_skipByteOrderMark src m).append
    (h.skipByteOrderMark.1.clear_skipBlanks true)
  exact ⟨.intro hstart hstop hle rfl trivial (by simp [unknown]), hbehind, hclear, rfl, rfl, rfl,
    .inl rfl, nofun⟩

theorem IsToken.asIdentifier {t : Tree} {a : Nat} (h : t.IsToken src a)
    (hsoft : t.symbol?.any (·.isSoft) = true) : { t with label := .token .identifier }.IsToken src a := by
  refine ⟨.intro h.sound.start h.sound.stop h.sound.between h.sound.size ⟨h.children, nofun⟩
    h.sound.children, h.behind, h.clear, h.children, h.extra, h.missing, .inr ⟨_, rfl⟩, ?_⟩
  rintro _ ⟨⟩
  have hinked : ∀ s : Symbol, s.isSoft = true → s ∉ Symbol.loose := by
    intro s
    cases s <;> decide
  unfold symbol? at hsoft
  split at hsoft
  · rename_i s hlabel
    exact ⟨fun _ => (h.spelled s hlabel).ink (hinked s hsoft), by simp [Symbol.separators], nofun, nofun⟩
  · cases hsoft

theorem IsToken.specless {t : Tree} {a : Nat} (h : t.IsToken src a) : t.Specless := by
  refine .intro ?_ (by simp [h.children])
  rcases h.label with hl | ⟨s, hl⟩ <;> simp [hl]

theorem sound_missingToken {s : Symbol} {here : Mark} (h : here.On src) (hs : s ≠ .quote) :
    (missingToken s here).Sound src :=
  .intro h h (Nat.le_refl _) rfl ⟨rfl, fun _ _ => .inr ⟨hs, rfl, rfl⟩⟩ (by simp [missingToken])

end Tree

theorem Symbol.signByte?_ofWord {word : Bytes} {s : Symbol} (h : ofWord? word = some s) :
    s.signByte? = none := by
  obtain ⟨x, hx, rfl⟩ := Option.map_eq_some_iff.mp h
  exact (spellings_fit.2 x (List.mem_of_find?_eq_some hx)).1

theorem readToken_isToken (s : State) (h : m.On src) : (readToken s m).1.IsToken src m.offset := by
  unfold readToken
  dsimp only
  split
  · exact Tree.isToken_unknown h
  · rename_i l hl
    have hfits : l.Fits src m ∧ Clear src m.offset l.start.offset ∧
        l.symbol.Spelled src l.start.offset l.stop.offset := by
      rcases Option.or_eq_some_iff.mp hl with hl | ⟨-, hl⟩
      · exact ⟨h.lex hl, h.lex_spelled hl⟩
      · exact ⟨h.lex hl, h.lex_spelled hl⟩
    obtain ⟨hfits, hclear, hspelled⟩ := hfits
    split_ifs with hsymbol
    · rw [eq_of_beq hsymbol] at hspelled
      split
      · exact Tree.isToken_leaf hfits hclear hspelled (.inr rfl)
      · rename_i word hword
        split_ifs
        · exact Tree.isToken_leaf hfits hclear
            (hspelled.ofWord hfits.start hfits.stop hfits.le hword)
            (.inr (Symbol.signByte?_ofWord hword))
        · exact Tree.isToken_leaf hfits hclear hspelled (.inr rfl)
    · exact Tree.isToken_leaf hfits hclear hspelled (.inl rfl)

end ImportGroups.Source
