import ImportGroups.Proofs.Soundness.Trees

/-!
What tokens are spelled with.

Between two tokens there are only blanks, and a byte order mark at the start of the source. Most
tokens start with a byte that is neither a line feed nor zero. The tokens that end a spec have no
other bytes than line feeds, semicolons and zeros, and a comment of two bytes stands before a line
feed or a zero.
-/

namespace ImportGroups.Source

open Text (Bytes)

/-- All bytes from one offset up to another one satisfy `p`. -/
def AllBytes (p : UInt8 → Prop) (src : Bytes) (a b : Nat) : Prop :=
  ∀ i, a ≤ i → i < b → ∀ x ∈ src[i]?, p x

theorem AllBytes.imp {p q : UInt8 → Prop} {src : Bytes} {a b : Nat} (h : AllBytes p src a b)
    (hpq : ∀ x, p x → q x) : AllBytes q src a b :=
  fun i ha hb x hx => hpq x (h i ha hb x hx)

theorem AllBytes.append {p : UInt8 → Prop} {src : Bytes} {a b c : Nat} (h : AllBytes p src a b)
    (h' : AllBytes p src b c) : AllBytes p src a c := by
  intro i ha hc
  by_cases hb : i < b
  · exact h i ha hb
  · exact h' i (Nat.le_of_not_lt hb) hc

/-- There are only blanks between two offsets, apart from a byte order mark. -/
def Clear (src : Bytes) (a b : Nat) : Prop :=
  AllBytes (fun x => isBlankByte x = true) src (max 3 a) b

def separatorBytes : Bytes := [lineFeed, 0x3B, 0]

def letterByte : UInt8 := 0x69

/-- A byte that may stand between two specs of a block. -/
def IsGapByte (x : UInt8) : Prop := isBlankByte x = true ∨ x ∈ separatorBytes

namespace Symbol

def separators : List Symbol := [newline, semicolon, zero]

/-- The symbols whose text may be empty or start with any byte. -/
def loose : List Symbol := [endOfFile, newline, zero, content, rawContent]

/-- What is known of the first bytes of a text if they are read as a symbol. -/
structure Heads (s : Symbol) (bs : Bytes) (n : Nat) : Prop where
  ink : s ∉ loose → ∃ x, bs.head? = some x ∧ x ≠ lineFeed ∧ x ≠ 0
  ends : s ∈ separators → ∀ x ∈ bs.take n, x ∈ separatorBytes
  comment : s = .comment →
    2 ≤ n ∧ 2 ≤ bs.length ∧ (n = 2 → ∀ x ∈ bs[2]?, x = lineFeed ∨ x = 0)
  unworded : s ≠ .importWord

/-- What is known of the text between two offsets if it is a token with this symbol. -/
structure Spelled (src : Bytes) (s : Symbol) (a b : Nat) : Prop where
  ink : s ∉ loose → ∃ x, src[a]? = some x ∧ x ≠ lineFeed ∧ x ≠ 0
  ends : s ∈ separators → AllBytes (· ∈ separatorBytes) src a b
  comment : s = .comment → a + 2 ≤ b ∧ (b = a + 2 → ∀ x ∈ src[b]?, x = lineFeed ∨ x = 0)
  word : s = .importWord → b = a + 6 ∧ src[a]? = some letterByte

end Symbol

section Heads

variable {b : UInt8} {bs : Bytes} {s : Symbol} {n : Nat}

theorem Symbol.heads_of_ink (hfeed : b ≠ lineFeed) (hzero : b ≠ 0)
    (hs : s ∉ [Symbol.newline, .semicolon, .zero, .comment, .importWord]) : s.Heads (b :: bs) n := by
  simp only [List.mem_cons, List.not_mem_nil, or_false, not_or] at hs
  obtain ⟨hnewline, hsemicolon, hs0, hcomment, hword⟩ := hs
  refine ⟨fun _ => ⟨b, rfl, hfeed, hzero⟩, fun hmem => ?_, fun h => absurd h hcomment, hword⟩
  simp [separators, hnewline, hsemicolon, hs0] at hmem

theorem le_blockCommentLength {k : Nat} (h : blockCommentLength? k bs = some n) : k + 2 ≤ n := by
  induction bs generalizing k with
  | nil => cases h
  | cons b bs ih =>
    rw [blockCommentLength?] at h
    split_ifs at h
    · cases h
      exact Nat.le_refl _
    · have := ih h
      omega

theorem heads_comment (hfeed : b ≠ lineFeed) (hzero : b ≠ 0) (h : commentLength (b :: bs) ≠ 0) :
    Symbol.comment.Heads (b :: bs) (commentLength (b :: bs)) := by
  refine ⟨fun _ => ⟨b, rfl, hfeed, hzero⟩, nofun, fun _ => ?_, nofun⟩
  unfold commentLength at h ⊢
  split
  · rename_i bs' hbs
    obtain ⟨rfl, rfl⟩ := List.cons_eq_cons.mp hbs
    refine ⟨by omega, by simp, fun hlength x hx => ?_⟩
    have hnone : bs'.takeWhile (fun b => b != lineFeed && b != 0) = [] :=
      List.eq_nil_of_length_eq_zero (by omega)
    cases bs' with
    | nil => cases hx
    | cons c cs =>
      obtain rfl : c = x := Option.some.inj hx
      by_cases hnefeed : c = lineFeed
      · exact .inl hnefeed
      · by_cases hnezero : c = 0
        · exact .inr hnezero
        · simp [hnefeed, hnezero] at hnone
  · rename_i bs' hbs
    obtain ⟨rfl, rfl⟩ := List.cons_eq_cons.mp hbs
    cases hlength : blockCommentLength? 2 bs' with
    | none => simp [hlength] at h
    | some n =>
      have hle := le_blockCommentLength hlength
      rw [Option.getD_some]
      exact ⟨by omega, by simp, fun hn => absurd hn (by omega)⟩
  · simp at h

theorem spellings_fit :
    (∀ x ∈ Symbol.operatorSpellings, (∀ b ∈ x.2.signByte?, x.1 = [b]) ∧
      (x = ([0x3B], Symbol.semicolon) ∨
        x.2 ∉ [Symbol.newline, .semicolon, .zero, .comment, .importWord])) ∧
    ∀ x ∈ Symbol.wordSpellings, x.2.signByte? = none ∧
      x.2 ∉ [Symbol.newline, .semicolon, .zero, .comment] ∧
      (x.2 = .importWord → x.1.length = 6 ∧ x.1.head? = some letterByte) := by
  decide +kernel

theorem heads_operator {set : SymbolSet} (hfeed : b ≠ lineFeed) (hzero : b ≠ 0)
    (h : operatorAt? set (b :: bs) = some (s, n)) : s.Heads (b :: bs) n := by
  obtain ⟨⟨spelling, s'⟩, hfind, hx⟩ := Option.map_eq_some_iff.mp h
  cases hx
  rcases (spellings_fit.1 _ (List.mem_of_find?_eq_some hfind)).2 with hx | hx
  · cases hx
    have hfits := List.find?_some hfind
    simp only [List.isPrefixOf_cons_cons, Bool.and_eq_true, beq_iff_eq] at hfits
    obtain rfl := hfits.1.1
    exact ⟨fun _ => ⟨_, rfl, hfeed, hzero⟩, by simp [separatorBytes], nofun, nofun⟩
  · exact Symbol.heads_of_ink hfeed hzero hx

theorem number_mem (h : numberAt? bs = some (s, n)) : s ∈ [Symbol.imaginary, .float, .integer] := by
  unfold numberAt? at h
  dsimp only at h
  split_ifs at h
  all_goals
    cases h
    simp

theorem heads_symbolAt {set : SymbolSet} (h : symbolAt? set bs = some (s, n)) : s.Heads bs n := by
  cases bs with
  | nil =>
    rw [symbolAt?] at h
    split_ifs at h
    · cases h
      exact ⟨by simp [Symbol.loose], by simp [Symbol.separators], by simp, by simp⟩
    · cases h
      exact ⟨by simp [Symbol.loose], by simp, by simp, by simp⟩
  | cons b bs =>
    rw [symbolAt?] at h
    dsimp only at h
    split at h
    · split_ifs at h
      cases h
      refine ⟨by simp [Symbol.loose], fun _ x hx => ?_, by simp, by simp⟩
      rw [← List.prefix_iff_eq_take.mp (List.takeWhile_prefix _)] at hx
      have hx : x = lineFeed := eq_of_beq (List.all_eq_true.mp List.all_takeWhile x hx)
      simp [separatorBytes, hx]
    rename_i hfeed
    have hfeed : b ≠ lineFeed := by simpa using hfeed
    split at h
    · rename_i hzero
      split_ifs at h
      cases h
      refine ⟨by simp [Symbol.loose], fun _ x hx => ?_, by simp, by simp⟩
      obtain rfl : x = b := by simpa using hx
      simp [separatorBytes, eq_of_beq hzero]
    rename_i hzero
    have hzero : b ≠ 0 := by simpa using hzero
    split at h
    · rename_i hcomment
      cases h
      exact heads_comment hfeed hzero (by simpa using (Bool.and_eq_true_iff.mp hcomment).2)
    split at h
    · cases h
      exact Symbol.heads_of_ink hfeed hzero (by simp)
    · rcases Option.or_eq_some_iff.mp h with h | ⟨-, h⟩
      · split_ifs at h
        have hmem := number_mem h
        simp only [List.mem_cons, List.not_mem_nil, or_false] at hmem
        refine Symbol.heads_of_ink hfeed hzero ?_
        rcases hmem with rfl | rfl | rfl <;> simp
      · rcases Option.or_eq_some_iff.mp h with h | ⟨-, h⟩
        · split_ifs at h
          cases h
          exact Symbol.heads_of_ink hfeed hzero (by simp)
        · exact heads_operator hfeed hzero h

theorem heads_tightSymbolAt {set : SymbolSet} (h : tightSymbolAt? set bs = some (s, n)) :
    s.Heads bs n := by
  unfold tightSymbolAt? at h
  split_ifs at h with _ hquote hescape
  · cases h
    exact ⟨by simp [Symbol.loose], by simp [Symbol.separators], by simp, by simp⟩
  · cases h
    have hhead := eq_of_beq (Bool.and_eq_true_iff.mp hquote).2
    exact ⟨fun _ => ⟨_, hhead, by decide, by decide⟩, by simp [Symbol.separators], by simp, by simp⟩
  · cases h
    simp only [Bool.and_eq_true, beq_iff_eq] at hescape
    exact ⟨fun _ => ⟨_, hescape.1.2, by decide, by decide⟩, by simp [Symbol.separators], by simp, by simp⟩
  · cases h
    exact ⟨by simp [Symbol.loose], by simp [Symbol.separators], by simp, by simp⟩

end Heads

namespace Mark

variable {src : Bytes} {m : Mark} {n : Nat}

theorem offset_advance_min (n : Nat) (m : Mark) :
    (m.advance n).offset = m.offset + min n m.rest.length := by
  induction n generalizing m with
  | zero => simp [advance]
  | succ n ih =>
    rw [advance, ih, rest_step, List.length_drop]
    cases hr : m.rest with
    | nil => simp [step, hr]
    | cons b bs =>
      rw [offset_step (by simp [hr]), List.length_cons]
      omega

theorem On.allBytes_advance {p : UInt8 → Prop} (h : m.On src) (hp : ∀ x ∈ m.rest.take n, p x) :
    AllBytes p src m.offset (m.advance n).offset := by
  intro i hle hlt x hx
  rw [offset_advance_min] at hlt
  refine hp x ?_
  rw [List.mem_iff_getElem?]
  refine ⟨i - m.offset, ?_⟩
  rw [List.getElem?_take_of_lt (by omega), h.2, List.getElem?_drop,
    show m.offset + (i - m.offset) = i by omega]
  exact hx

theorem clear_skipByteOrderMark (src : Bytes) (m : Mark) :
    Clear src m.offset m.skipByteOrderMark.offset := by
  intro i hle hlt
  unfold Mark.skipByteOrderMark at hlt
  split_ifs at hlt with hbom
  · have hzero : m.offset = 0 := by
      simp only [Bool.and_eq_true, beq_iff_eq] at hbom
      exact hbom.1
    rw [offset_advance_min] at hlt
    omega
  · omega

theorem On.clear_skipBlanks (h : m.On src) (lines : Bool) :
    Clear src m.offset (m.skipBlanks lines).offset := by
  have hbytes : AllBytes (fun x => isBlankByte x = true) src m.offset (m.skipBlanks lines).offset := by
    refine h.allBytes_advance fun x hx => ?_
    rw [← List.prefix_iff_eq_take.mp (List.takeWhile_prefix _)] at hx
    have := List.all_eq_true.mp List.all_takeWhile x hx
    exact (Bool.and_eq_true_iff.mp this).1
  exact fun i hle hlt => hbytes i (by omega) hlt

end Mark

theorem Clear.append {src : Bytes} {a b c : Nat} (h : Clear src a b) (h' : Clear src b c) :
    Clear src a c := by
  intro i ha hc
  by_cases hb : i < b
  · exact h i ha hb
  · exact h' i (by omega) hc

variable {src : Bytes} {m : Mark}

theorem Symbol.Heads.spelled {s : Symbol} {n : Nat} (h : s.Heads m.rest n) (hm : m.On src) :
    s.Spelled src m.offset (m.advance n).offset := by
  have hget : ∀ i, m.rest[i]? = src[m.offset + i]? := fun i => by rw [hm.2, List.getElem?_drop]
  refine ⟨fun hs => ?_, fun hs => ?_, fun hs => ?_, fun hs => absurd hs h.unworded⟩
  · obtain ⟨x, hx, hne⟩ := h.ink hs
    rw [List.head?_eq_getElem?, hget] at hx
    exact ⟨x, hx, hne⟩
  · exact hm.allBytes_advance (h.ends hs)
  · obtain ⟨hn, hlength, hnext⟩ := h.comment hs
    rw [Mark.offset_advance_min]
    refine ⟨by omega, fun hstop x hx => ?_⟩
    rw [hstop] at hx
    by_cases htwo : n = 2
    · exact hnext htwo x (by rw [hget]; exact hx)
    · -- the source ends behind a longer comment
      have hnone : m.rest[2]? = none := List.getElem?_eq_none (by omega)
      rw [hget] at hnone
      rw [hnone] at hx
      cases hx

theorem Mark.On.lex_spelled {set : SymbolSet} (h : m.On src) {l : Lexed} (hl : m.lex? set = some l) :
    Clear src m.offset l.start.offset ∧ l.symbol.Spelled src l.start.offset l.stop.offset := by
  have hbom := h.skipByteOrderMark.1
  unfold Mark.lex? at hl
  dsimp only at hl
  split at hl
  · rename_i s n htight
    cases hl
    exact ⟨Mark.clear_skipByteOrderMark src m, (heads_tightSymbolAt htight).spelled hbom⟩
  · obtain ⟨x, hx, rfl⟩ := Option.map_eq_some_iff.mp hl
    have hstart := (hbom.skipBlanks (!set.contains .newline)).1
    exact ⟨(Mark.clear_skipByteOrderMark src m).append (hbom.clear_skipBlanks _), (heads_symbolAt hx).spelled hstart⟩

theorem Symbol.Spelled.ofWord {s : Symbol} {start stop : Mark} (hstart : start.On src)
    (hstop : stop.On src) (hle : start.offset ≤ stop.offset)
    (h : Symbol.identifier.Spelled src start.offset stop.offset)
    (hs : Symbol.ofWord? (start.rest.take (stop.offset - start.offset)) = some s) :
    s.Spelled src start.offset stop.offset := by
  obtain ⟨⟨spelling, s'⟩, hfind, rfl⟩ := Option.map_eq_some_iff.mp hs
  obtain ⟨-, hs', hlength⟩ := spellings_fit.2 _ (List.mem_of_find?_eq_some hfind)
  simp only [List.mem_cons, List.not_mem_nil, or_false, not_or] at hs'
  refine ⟨fun _ => h.ink (by simp [loose]), fun hmem => ?_, fun hc => absurd hc hs'.2.2.2, fun hword => ?_⟩
  · simp [separators, hs'.1, hs'.2.1, hs'.2.2.1] at hmem
  · have hspelling := List.find?_some hfind
    simp only [beq_iff_eq] at hspelling
    obtain ⟨hsix, hhead⟩ := hlength hword
    have hstop := hstop.1
    rw [hspelling, List.length_take, hstart.2, List.length_drop] at hsix
    rw [hspelling, List.head?_take, if_neg (by omega), hstart.2, List.head?_drop] at hhead
    exact ⟨by omega, hhead⟩

end ImportGroups.Source
