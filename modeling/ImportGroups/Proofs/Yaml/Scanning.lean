import ImportGroups.Proofs.Outcome
import ImportGroups.Yaml.Scan
import Mathlib.Data.List.InsertIdx
import Mathlib.Tactic.SplitIfs

/-!
What is known of the places and tokens of a text holds from token to token.

Every reader of a part of a text ends at a place further on. So a property of places that passes on to
the next place holds wherever a token starts, and with it what the property says about the tokens that
start there.
-/

namespace ImportGroups.Yaml

/-- The second place is the first or stands after it. -/
def Cursor.Reaches (c c' : Cursor) : Prop := ∃ n, c' = c.advance n

namespace Cursor

theorem Reaches.refl (c : Cursor) : c.Reaches c := ⟨0, rfl⟩

theorem advance_advance (m n : Nat) (c : Cursor) : (c.advance m).advance n = c.advance (m + n) := by
  induction m generalizing c with
  | zero => rw [Nat.zero_add, advance]
  | succ m ih => rw [Nat.succ_add, advance, advance, ih]

theorem Reaches.trans {c₁ c₂ c₃ : Cursor} (h₁ : c₁.Reaches c₂) (h₂ : c₂.Reaches c₃) :
    c₁.Reaches c₃ := by
  obtain ⟨m, rfl⟩ := h₁
  obtain ⟨n, rfl⟩ := h₂
  exact ⟨m + n, advance_advance m n c₁⟩

theorem next_chars (c : Cursor) : c.next.chars = c.chars.tail := by
  unfold next
  split
  · rename_i hnil
    rw [hnil, List.tail_nil]
  · rename_i ch rest hcons
    split_ifs <;> rw [hcons, List.tail_cons]

theorem reaches_advance (c : Cursor) (n : Nat) : c.Reaches (c.advance n) := ⟨n, rfl⟩

theorem reaches_next (c : Cursor) : c.Reaches c.next := ⟨1, rfl⟩

theorem reaches_span (c : Cursor) (p : Char → Bool) : c.Reaches (c.span p).2 := ⟨_, rfl⟩

theorem reaches_skip (c : Cursor) (p : Char → Bool) : c.Reaches (c.skip p) := reaches_span c p

theorem reaches_lineBreak {c c' : Cursor} {b : Char} (h : c.lineBreak? = some (b, c')) :
    c.Reaches c' := by
  unfold lineBreak? at h
  split at h
  · split_ifs at h <;> cases h <;> exact c.reaches_next
  · cases h

theorem reaches_comment (c : Cursor) (b : Bool) :
    c.Reaches (if b then c.skip (!isLineStop ·) else c) := by
  cases b with
  | true => exact c.reaches_skip _
  | false => exact .refl c

end Cursor

open Cursor

theorem reaches_plainBreaks {fuel : Nat} {c c' : Cursor} {bs : List Char}
    (h : plainBreaks fuel c = some (bs, c')) : c.Reaches c' := by
  induction fuel generalizing c bs with
  | zero =>
    cases h
    exact .refl _
  | succ fuel ih =>
    rw [plainBreaks] at h
    cases hb : c.lineBreak? with
    | some x =>
      obtain ⟨b, c₁⟩ := x
      simp only [hb] at h
      split_ifs at h
      obtain ⟨⟨bs', c₂⟩, hrest, hpair⟩ := Option.map_eq_some_iff.mp h
      cases hpair
      exact (reaches_lineBreak hb).trans (ih hrest)
    | none =>
      simp only [hb] at h
      split_ifs at h
      · exact c.reaches_next.trans (ih h)
      · cases h
        exact .refl _

theorem reaches_plainSpaces (fuel : Nat) (c : Cursor) : c.Reaches (plainSpaces fuel c).2.2 := by
  have hspan := c.reaches_span (· == ' ')
  unfold plainSpaces
  generalize c.span (· == ' ') = blanks at hspan ⊢
  obtain ⟨blanks, c₁⟩ := blanks
  cases hb : c₁.lineBreak? with
  | none => simpa [hb] using hspan
  | some x =>
    obtain ⟨b, c₂⟩ := x
    have hbreak := hspan.trans (reaches_lineBreak hb)
    simp only [hb]
    split_ifs
    · exact hbreak
    · cases hp : plainBreaks fuel c₂ with
      | none => exact hbreak.trans (reaches_skip _ _)
      | some y => exact hbreak.trans (reaches_plainBreaks hp)

theorem reaches_plainText (p : PlainPlace) (fuel : Nat) (c : Cursor) (text spaces : List Char)
    (ended : Bool) : c.Reaches (plainText p fuel c text spaces ended).2.2 := by
  induction fuel generalizing c text spaces ended with
  | zero => exact .refl c
  | succ fuel ih =>
    rw [plainText]
    generalize (if c.peek? == some '#' then 0 else plainLength p c.chars) = n
    dsimp only
    have hspaces := (c.reaches_advance n).trans (reaches_plainSpaces fuel (c.advance n))
    generalize plainSpaces fuel (c.advance n) = after at hspaces ⊢
    split_ifs
    · exact .refl c
    · exact hspaces
    · exact hspaces.trans (ih ..)

theorem reaches_quotedBreaks {fuel : Nat} {c c' : Cursor} {bs : List Char}
    (h : quotedBreaks fuel c = .ok (bs, c')) : c.Reaches c' := by
  induction fuel generalizing c bs with
  | zero =>
    cases h
    exact .refl _
  | succ fuel ih =>
    rw [quotedBreaks] at h
    split_ifs at h
    dsimp only at h
    have hskip := c.reaches_skip fun ch => ch == ' ' || ch == '\t'
    generalize (c.skip fun ch => ch == ' ' || ch == '\t') = c₁ at hskip h
    cases hb : c₁.lineBreak? with
    | none =>
      simp only [hb] at h
      cases h
      exact hskip
    | some x =>
      simp only [hb] at h
      obtain ⟨⟨bs', c₂⟩, hrest, hpair⟩ := map_eq_ok_iff.mp h
      cases hpair
      exact hskip.trans ((reaches_lineBreak hb).trans (ih hrest))

theorem reaches_escapeAt {fuel : Nat} {c c' : Cursor} {cs : List Char}
    (h : escapeAt fuel c = .ok (cs, c')) : c.Reaches c' := by
  unfold escapeAt at h
  split at h
  · cases h
  · split at h
    · cases h
      exact c.reaches_next
    · dsimp only at h
      split at h
      · obtain ⟨ch, -, hpair⟩ := map_eq_ok_iff.mp h
        cases hpair
        exact c.reaches_advance _
      · cases h
    · split at h
      · rename_i hb
        exact (reaches_lineBreak hb).trans (reaches_quotedBreaks h)
      · cases h

theorem reaches_quotedSpaces {fuel : Nat} {c c' : Cursor} {cs : List Char}
    (h : quotedSpaces fuel c = .ok (cs, c')) : c.Reaches c' := by
  have hspan := c.reaches_span fun ch => ch == ' ' || ch == '\t'
  unfold quotedSpaces at h
  generalize (c.span fun ch => ch == ' ' || ch == '\t') = blanks at hspan h
  obtain ⟨blanks, c₁⟩ := blanks
  cases hb : c₁.lineBreak? with
  | none =>
    simp only [hb] at h
    split_ifs at h
    cases h
    exact hspan
  | some x =>
    simp only [hb] at h
    obtain ⟨⟨bs, c₂⟩, hrest, hpair⟩ := map_eq_ok_iff.mp h
    cases hpair
    exact hspan.trans ((reaches_lineBreak hb).trans (reaches_quotedBreaks hrest))

theorem reaches_quotedText {quote : Char} {fuel : Nat} {c c' : Cursor} {text out : List Char}
    (h : quotedText quote fuel c text = .ok (out, c')) : c.Reaches c' := by
  induction fuel generalizing c text with
  | zero => cases h
  | succ fuel ih =>
    rw [quotedText] at h
    split at h
    · cases h
    · split_ifs at h
      · exact (c.reaches_advance 2).trans (ih h)
      · cases h
        exact c.reaches_next
      · split at h
        · rename_i he
          exact c.reaches_next.trans ((reaches_escapeAt he).trans (ih h))
        · cases h
      · split at h
        · rename_i hs
          exact (reaches_quotedSpaces hs).trans (ih h)
        · cases h
      · exact c.reaches_next.trans (ih h)

theorem reaches_leadingLines (fuel : Nat) (c : Cursor) (widest : Nat) (first : Option Nat) :
    c.Reaches (leadingLines fuel c widest first).2.2.2 := by
  induction fuel generalizing c widest first with
  | zero => exact .refl c
  | succ fuel ih =>
    rw [leadingLines]
    cases hb : c.lineBreak? with
    | some x => exact (reaches_lineBreak hb).trans (ih ..)
    | none =>
      dsimp only
      split_ifs
      · exact c.reaches_next.trans (ih ..)
      · exact .refl c

theorem reaches_blockBreaks (indent fuel : Nat) (c : Cursor) :
    c.Reaches (blockBreaks indent fuel c).2 := by
  induction fuel generalizing c with
  | zero => exact .refl c
  | succ fuel ih =>
    have hindent : c.Reaches (skipIndent indent c) := c.reaches_advance _
    rw [blockBreaks]
    dsimp only
    generalize skipIndent indent c = c₁ at hindent ⊢
    cases hb : c₁.lineBreak? with
    | some x => exact hindent.trans ((reaches_lineBreak hb).trans (ih _))
    | none => exact hindent

theorem reaches_lineEnd (c : Cursor) : c.Reaches (lineEnd c).2 := by
  unfold lineEnd
  split
  · rename_i hbreak
    exact reaches_lineBreak hbreak
  · exact .refl c

theorem reaches_blockText (style : BlockStyle) (fuel : Nat) (c : Cursor) (breaks text : List Char) :
    c.Reaches (blockText style fuel c breaks text).2 := by
  induction fuel generalizing c breaks text with
  | zero => exact .refl c
  | succ fuel ih =>
    have hline := c.reaches_span (!isLineStop ·)
    rw [blockText]
    dsimp only
    generalize c.span (!isLineStop ·) = line at hline ⊢
    have hbreaks : c.Reaches (blockBreaks style.indent fuel (lineEnd line.2).2).2 :=
      (hline.trans (reaches_lineEnd line.2)).trans (reaches_blockBreaks style.indent fuel _)
    split_ifs
    · exact hbreaks.trans (ih ..)
    · exact hbreaks.trans (ih ..)
    · exact hbreaks.trans (ih ..)
    · exact hbreaks

theorem reaches_blockMarks (c : Cursor) : c.Reaches (blockMarks c).2.2 := by
  unfold blockMarks
  split
  · exact .refl c
  · split
    · split
      · exact c.reaches_advance 2
      · exact c.reaches_next
    · split
      · split
        · exact c.reaches_advance 2
        · exact c.reaches_next
      · exact .refl c

theorem reaches_blockHeader {c c' : Cursor} {chomping : Chomping} {n? : Option Nat}
    (h : blockHeader c = some (chomping, n?, c')) : c.Reaches c' := by
  have hmarks := reaches_blockMarks c
  unfold blockHeader at h
  generalize blockMarks c = marks at hmarks h
  obtain ⟨chomp, incr, c₁⟩ := marks
  have hblanks := hmarks.trans (c₁.reaches_skip (· == ' '))
  dsimp only at h hblanks
  generalize c₁.skip (· == ' ') = c₂ at hblanks h
  have hcomment := hblanks.trans (c₂.reaches_comment (c₂.peek? == some '#'))
  generalize (if (c₂.peek? == some '#') = true then c₂.skip (!isLineStop ·) else c₂) = c₃
    at hcomment h
  obtain ⟨-, -, h⟩ := Option.bind_eq_some_iff.mp h
  obtain ⟨-, -, h⟩ := Option.bind_eq_some_iff.mp h
  cases h
  split_ifs
  · exact hcomment
  · exact hcomment.trans c₃.reaches_next

/-- A property of places that passes on to the next place, and one of tokens that it gives at the places
where a version directive can start and that other tokens have anyway. -/
structure Admits (K : Cursor → Prop) (A : Token → Prop) : Prop where
  next : ∀ {c}, K c → K c.next
  version : ∀ {c}, K c → c.column = 0 → "%YAML".toList <+: c.chars → ∀ v, A (.directive (.version v))
  other : ∀ t, (∀ v, t ≠ .directive (.version v)) → A t

variable {K : Cursor → Prop} {A : Token → Prop}

theorem Admits.reaches (hK : Admits K A) {c c' : Cursor} (hc : K c) (h : c.Reaches c') : K c' := by
  obtain ⟨n, rfl⟩ := h
  induction n generalizing c with
  | zero => exact hc
  | succ n ih => exact ih (hK.next hc)

theorem reaches_versionNumber {c c' : Cursor} {n : Nat}
    (h : ScanState.versionNumber c = .ok (n, c')) : c.Reaches c' := by
  have hspan := c.reaches_span Char.isDigit
  unfold ScanState.versionNumber at h
  generalize c.span Char.isDigit = digits at hspan h
  dsimp only at h
  split_ifs at h
  split at h
  · cases h
    exact hspan
  · cases h

namespace ScanState

structure Within (K : Cursor → Prop) (A : Token → Prop) (st : ScanState) : Prop where
  place : K st.cursor
  tokens : ∀ t ∈ st.tokens, A t

variable {st st' : ScanState}

theorem Within.push (h : st.Within K A) {t : Token} (ht : A t) : (st.push t).Within K A := by
  refine ⟨h.place, fun t' ht' => ?_⟩
  rcases List.mem_append.mp ht' with hin | hnew
  · exact h.tokens t' hin
  · rwa [List.mem_singleton.mp hnew]

theorem Within.insert (h : st.Within K A) {t : Token} (ht : A t) (i : Nat) :
    (st.insert i t).Within K A := by
  refine ⟨h.place, fun t' ht' => ?_⟩
  rcases List.eq_or_mem_of_mem_insertIdx ht' with rfl | hin
  · exact ht
  · exact h.tokens t' hin

def Alike (st st' : ScanState) : Prop := st'.cursor = st.cursor ∧ st'.tokens = st.tokens

theorem Alike.within (hst : st.Alike st') (h : st.Within K A) : st'.Within K A :=
  ⟨hst.1 ▸ h.place, hst.2 ▸ h.tokens⟩

theorem Within.ite {b : Bool} (h : st.Within K A) (h' : st'.Within K A) :
    (if b then st else st').Within K A := by
  cases b with
  | true => exact h
  | false => exact h'

theorem dropStale_alike (h : st.dropStale = .ok st') : st.Alike st' := by
  obtain ⟨-, -, h⟩ := bind_eq_ok_iff.mp h
  cases h
  exact ⟨rfl, rfl⟩

theorem dropKey_alike (h : st.dropKey = .ok st') : st.Alike st' := by
  obtain ⟨-, -, h⟩ := bind_eq_ok_iff.mp h
  cases h
  exact ⟨rfl, rfl⟩

theorem saveKey_alike (h : st.saveKey = .ok st') : st.Alike st' := by
  unfold saveKey at h
  split_ifs at h
  · obtain ⟨st₁, hdrop, h⟩ := bind_eq_ok_iff.mp h
    have halike := dropKey_alike hdrop
    cases h
    exact halike
  · cases h
    exact ⟨rfl, rfl⟩

theorem Within.closeBlocks (h : st.Within K A) (hend : A .blockEnd) (column : Option Nat) :
    (st.closeBlocks column).Within K A := by
  have hgo : ∀ indents indent ends, (∀ t ∈ ends, A t) →
      (closeBlocks.go st column indents indent ends).Within K A := by
    intro indents
    induction indents with
    | nil =>
      intro indent ends hends
      exact ⟨h.place, List.forall_mem_append.mpr ⟨h.tokens, hends⟩⟩
    | cons outer rest ih =>
      intro indent ends hends
      unfold closeBlocks.go
      exact .ite (ih _ _ (List.forall_mem_cons.mpr ⟨hend, hends⟩))
        ⟨h.place, List.forall_mem_append.mpr ⟨h.tokens, hends⟩⟩
  unfold ScanState.closeBlocks
  split_ifs
  · exact h
  · exact hgo _ _ _ (List.forall_mem_nil _)

theorem closeBlocks_cursor (st : ScanState) (column : Option Nat) :
    (st.closeBlocks column).cursor = st.cursor :=
  (Within.closeBlocks (K := (· = st.cursor)) (A := fun _ => True) ⟨rfl, fun _ _ => trivial⟩ trivial
    column).place

theorem Within.openBlock (h : st.Within K A) (column : Nat) {start : Token} (ht : A start) (i : Nat) :
    (st.openBlock column start i).Within K A := by
  have hnew := h.insert ht i
  unfold ScanState.openBlock
  exact .ite ⟨hnew.place, hnew.tokens⟩ h

theorem Within.openHere (h : st.Within K A) {start : Token} (ht : A start)
    (hst : st.openHere start = .ok st') : st'.Within K A := by
  obtain ⟨-, -, hst⟩ := bind_eq_ok_iff.mp hst
  cases hst
  exact .ite h (h.openBlock _ ht _)

/-- A token that may stand anywhere is cut off in front of a place further on. -/
theorem Within.cut (hK : Admits K A) (h : st.Within K A) {t : Token} (ht : A t) {c : Cursor}
    (hc : st.cursor.Reaches c) (hst : st'.cursor = c ∧ st'.tokens = st.tokens ++ [t]) :
    st'.Within K A := by
  have hpush := h.push ht
  refine ⟨?_, ?_⟩
  · rw [hst.1]
    exact hK.reaches h.place hc
  · rw [hst.2]
    exact hpush.tokens

section

variable (hK : Admits K A)
include hK

theorem Within.blockScalar (h : st.Within K A) {folded : Bool}
    (hst : st.blockScalar folded = .ok st') : st'.Within K A := by
  obtain ⟨st₁, hdrop, hst⟩ := bind_eq_ok_iff.mp hst
  have h₁ : st₁.Within K A := (dropKey_alike hdrop).within ⟨h.place, h.tokens⟩
  -- The lines of the scalar are read from the place after its header on.
  have hlines : ∀ style c breaks, st₁.cursor.Reaches c →
      (st₁.blockScalarText style c breaks).Within K A := by
    intro style c breaks hc
    have hscalar : ∀ text, A (.scalar text false) := fun _ => hK.other _ (by simp)
    unfold blockScalarText
    dsimp only
    split_ifs
    · exact h₁.cut hK (hscalar _) (hc.trans (reaches_blockText ..)) ⟨rfl, rfl⟩
    · exact h₁.cut hK (hscalar _) hc ⟨rfl, rfl⟩
    · exact h₁.cut hK (hscalar _) hc ⟨rfl, rfl⟩
  split at hst
  · cases hst
  · rename_i chomping n c hheader
    have hc := st₁.cursor.reaches_next.trans (reaches_blockHeader hheader)
    cases hst
    exact hlines _ _ _ (hc.trans (reaches_blockBreaks ..))
  · rename_i chomping c hheader
    have hc := st₁.cursor.reaches_next.trans (reaches_blockHeader hheader)
    obtain ⟨-, -, hst⟩ := bind_eq_ok_iff.mp hst
    cases hst
    exact hlines _ _ _ (hc.trans (reaches_leadingLines ..))

theorem Within.quotedScalar (h : st.Within K A) {quote : Char}
    (hst : st.quotedScalar quote = .ok st') : st'.Within K A := by
  obtain ⟨st₁, hsave, hst⟩ := bind_eq_ok_iff.mp hst
  obtain ⟨⟨text, c⟩, htext, hst⟩ := bind_eq_ok_iff.mp hst
  cases hst
  refine ((saveKey_alike hsave).within h).cut hK (hK.other (.scalar _ _) (by simp)) ?_
    ⟨rfl, rfl⟩
  exact st₁.cursor.reaches_next.trans (reaches_quotedText htext)

theorem Within.plainScalar (h : st.Within K A) (hst : st.plainScalar = .ok st') :
    st'.Within K A := by
  obtain ⟨st₁, hsave, hst⟩ := bind_eq_ok_iff.mp hst
  cases hst
  exact ((saveKey_alike hsave).within h).cut hK (hK.other (.scalar _ _) (by simp))
    (reaches_plainText ..) ⟨rfl, rfl⟩

theorem Within.anchorOrReference (h : st.Within K A) {make : String → Token}
    (hmake : ∀ name, A (make name)) (hst : st.anchorOrReference make = .ok st') :
    st'.Within K A := by
  obtain ⟨st₁, hsave, hst⟩ := bind_eq_ok_iff.mp hst
  obtain ⟨-, -, hst⟩ := bind_eq_ok_iff.mp hst
  obtain ⟨-, -, hst⟩ := bind_eq_ok_iff.mp hst
  cases hst
  exact ((saveKey_alike hsave).within h).cut hK (hmake _)
    (st₁.cursor.reaches_next.trans (reaches_span _ _)) ⟨rfl, rfl⟩

end

theorem reaches_tagUri {c c' : Cursor} {uri : String} (h : st.tagUri c = .ok (uri, c')) :
    c.Reaches c' := by
  obtain ⟨-, -, h⟩ := bind_eq_ok_iff.mp h
  cases h
  exact c.reaches_span _

theorem reaches_tagHandle {c c' : Cursor} {handle : String} (h : tagHandle c = .ok (handle, c')) :
    c.Reaches c' := by
  obtain ⟨-, -, h⟩ := bind_eq_ok_iff.mp h
  split_ifs at h
  · cases h
    exact c.reaches_next
  · obtain ⟨-, -, h⟩ := bind_eq_ok_iff.mp h
    cases h
    exact c.reaches_next.trans ((reaches_span _ _).trans (reaches_next _))

theorem tagToken_spec {t : Token} {c : Cursor} (h : st.tagToken = .ok (t, c)) :
    (∃ handle suffix, t = .tag handle suffix) ∧ st.cursor.Reaches c := by
  have hshort : st.cursor.Reaches
      (if st.cursor.peekAt? 1 == some '!' then ("!!", st.cursor.next) else ("!", st.cursor)).2 := by
    split_ifs
    · exact st.cursor.reaches_next
    · exact .refl _
  unfold tagToken at h
  generalize (if st.cursor.peekAt? 1 == some '!' then ("!!", st.cursor.next)
    else ("!", st.cursor)) = short at hshort h
  obtain ⟨short, c₁⟩ := short
  dsimp only at h hshort
  split at h
  · obtain ⟨⟨suffix, c₂⟩, huri, h⟩ := bind_eq_ok_iff.mp h
    obtain ⟨-, -, h⟩ := bind_eq_ok_iff.mp h
    cases h
    exact ⟨⟨_, _, rfl⟩, hshort.trans ((c₁.reaches_advance 2).trans
      ((reaches_tagUri huri).trans (reaches_next _)))⟩
  · split_ifs at h
    · cases h
      exact ⟨⟨_, _, rfl⟩, hshort.trans (reaches_next _)⟩
    · obtain ⟨⟨handle, c₂⟩, hhandle, h⟩ := bind_eq_ok_iff.mp h
      obtain ⟨⟨suffix, c₃⟩, huri, h⟩ := bind_eq_ok_iff.mp h
      cases h
      exact ⟨⟨_, _, rfl⟩, hshort.trans ((reaches_tagHandle hhandle).trans (reaches_tagUri huri))⟩
    · obtain ⟨⟨handle, c₂⟩, hhandle, h⟩ := bind_eq_ok_iff.mp h
      obtain ⟨⟨suffix, c₃⟩, huri, h⟩ := bind_eq_ok_iff.mp h
      cases hhandle
      cases h
      exact ⟨⟨_, _, rfl⟩, hshort.trans ((reaches_next _).trans (reaches_tagUri huri))⟩

theorem isPrefix_of_directive {c : Cursor} {p : Char → Bool} (hsign : c.peek? = some '%')
    (hname : (c.next.span p).1 = "YAML".toList) : "%YAML".toList <+: c.chars := by
  have hrun : c.chars.tail.takeWhile p = "YAML".toList := by
    rw [← next_chars]
    exact hname
  have hyaml : "%YAML".toList = '%' :: "YAML".toList := by decide
  obtain ⟨rest, hrest⟩ := List.head?_eq_some_iff.mp hsign
  rw [hrest, List.tail_cons] at hrun
  rw [hrest, hyaml, ← hrun]
  exact List.cons_prefix_cons.mpr ⟨rfl, List.takeWhile_prefix p⟩

theorem directiveBody_spec {name : List Char} {c c' : Cursor} {d : Directive}
    (h : st.directiveBody name c = .ok (d, c')) :
    (∀ v, d = .version v → name = "YAML".toList) ∧ c.Reaches c' := by
  unfold directiveBody at h
  split_ifs at h with hyaml htag
  · obtain ⟨⟨major, c₁⟩, hmajor, h⟩ := bind_eq_ok_iff.mp h
    obtain ⟨-, -, h⟩ := bind_eq_ok_iff.mp h
    obtain ⟨⟨minor, c₂⟩, hminor, h⟩ := bind_eq_ok_iff.mp h
    obtain ⟨-, -, h⟩ := bind_eq_ok_iff.mp h
    cases h
    refine ⟨fun _ _ => by simpa using hyaml, ?_⟩
    exact (c.reaches_skip _).trans ((reaches_versionNumber hmajor).trans
      ((reaches_next _).trans (reaches_versionNumber hminor)))
  · obtain ⟨⟨handle, c₁⟩, hhandle, h⟩ := bind_eq_ok_iff.mp h
    obtain ⟨-, -, h⟩ := bind_eq_ok_iff.mp h
    obtain ⟨⟨start, c₂⟩, huri, h⟩ := bind_eq_ok_iff.mp h
    obtain ⟨-, -, h⟩ := bind_eq_ok_iff.mp h
    cases h
    refine ⟨by simp, ?_⟩
    exact (c.reaches_skip _).trans ((reaches_tagHandle hhandle).trans
      ((reaches_skip _ _).trans (reaches_tagUri huri)))
  · cases h
    exact ⟨by simp, c.reaches_skip _⟩

section

variable (hK : Admits K A)
include hK

theorem Within.tag (h : st.Within K A) (hst : st.tag = .ok st') : st'.Within K A := by
  obtain ⟨st₁, hsave, hst⟩ := bind_eq_ok_iff.mp hst
  obtain ⟨⟨t, c⟩, htoken, hst⟩ := bind_eq_ok_iff.mp hst
  obtain ⟨-, -, hst⟩ := bind_eq_ok_iff.mp hst
  cases hst
  obtain ⟨⟨handle, suffix, rfl⟩, hc⟩ := tagToken_spec htoken
  exact ((saveKey_alike hsave).within h).cut hK (hK.other _ (by simp)) hc ⟨rfl, rfl⟩

theorem Within.closed (h : st.Within K A) (hdrop : (st.closeBlocks none).dropKey = .ok st') :
    st'.Within K A :=
  (dropKey_alike hdrop).within (h.closeBlocks (hK.other _ (by simp)) none)

theorem Within.directive (h : st.Within K A) (hmargin : st.cursor.column = 0)
    (hsign : st.cursor.peek? = some '%') (hst : st.directive = .ok st') : st'.Within K A := by
  obtain ⟨st₁, hdrop, hst⟩ := bind_eq_ok_iff.mp hst
  have h₁ := h.closed hK hdrop
  have hcursor : st₁.cursor = st.cursor :=
    (dropKey_alike hdrop).1.trans (closeBlocks_cursor st none)
  obtain ⟨-, -, hst⟩ := bind_eq_ok_iff.mp hst
  obtain ⟨⟨d, c⟩, hbody, hst⟩ := bind_eq_ok_iff.mp hst
  obtain ⟨-, -, hst⟩ := bind_eq_ok_iff.mp hst
  obtain ⟨hname, hc⟩ := directiveBody_spec hbody
  have hd : A (.directive d) := by
    by_cases hv : ∃ v, d = .version v
    · obtain ⟨v, rfl⟩ := hv
      refine hK.version h.place hmargin ?_ v
      rw [← hcursor] at hsign ⊢
      exact isPrefix_of_directive hsign (hname v rfl)
    · exact hK.other _ (by simpa using hv)
  have hend := st₁.cursor.reaches_next.trans ((reaches_span _ _).trans hc)
  have hobey : ({ st₁ with mayKey := false }.obey d).cursor = st₁.cursor ∧
      ({ st₁ with mayKey := false }.obey d).tokens = st₁.tokens := by
    cases d <;> exact ⟨rfl, rfl⟩
  cases hst
  refine h₁.cut hK hd (hend.trans (.trans ?_ (reaches_next _))) ⟨rfl, ?_⟩
  · exact (c.reaches_skip _).trans (reaches_comment _ _)
  · exact congrArg (· ++ [Token.directive d]) hobey.2

theorem Within.documentMarker (h : st.Within K A) {t : Token} (ht : A t)
    (hst : st.documentMarker t = .ok st') : st'.Within K A := by
  obtain ⟨st₁, hdrop, hst⟩ := bind_eq_ok_iff.mp hst
  cases hst
  exact (h.closed hK hdrop).cut hK ht (reaches_advance _ 3) ⟨rfl, rfl⟩

theorem Within.flowStart (h : st.Within K A) {kind : FlowKind} {t : Token} (ht : A t)
    (hst : st.flowStart kind t = .ok st') : st'.Within K A := by
  obtain ⟨st₁, hsave, hst⟩ := bind_eq_ok_iff.mp hst
  cases hst
  exact ((saveKey_alike hsave).within h).cut hK ht (reaches_next _) ⟨rfl, rfl⟩

theorem Within.flowEnd (h : st.Within K A) {t : Token} (ht : A t)
    (hst : st.flowEnd t = .ok st') : st'.Within K A := by
  obtain ⟨st₁, hdrop, hst⟩ := bind_eq_ok_iff.mp hst
  cases hst
  exact ((dropKey_alike hdrop).within h).cut hK ht (reaches_next _) ⟨rfl, rfl⟩

theorem Within.flowEntry (h : st.Within K A) (hst : st.flowEntry = .ok st') : st'.Within K A := by
  obtain ⟨st₁, hdrop, hst⟩ := bind_eq_ok_iff.mp hst
  have h₁ := (dropKey_alike hdrop).within ⟨h.place, h.tokens⟩
  cases hst
  exact h₁.cut hK (hK.other .flowEntry (by simp)) (reaches_next _) ⟨rfl, rfl⟩

theorem Within.blockEntry (h : st.Within K A) (hst : st.blockEntry = .ok st') : st'.Within K A := by
  obtain ⟨st₁, hopen, hst⟩ := bind_eq_ok_iff.mp hst
  obtain ⟨st₂, hdrop, hst⟩ := bind_eq_ok_iff.mp hst
  have h₁ := h.openHere (hK.other .blockSequenceStart (by simp)) hopen
  have h₂ := (dropKey_alike hdrop).within ⟨h₁.place, h₁.tokens⟩
  cases hst
  exact h₂.cut hK (hK.other .blockEntry (by simp)) (reaches_next _) ⟨rfl, rfl⟩

theorem Within.keyMark (h : st.Within K A) (hst : st.keyMark = .ok st') : st'.Within K A := by
  obtain ⟨st₁, hopen, hst⟩ := bind_eq_ok_iff.mp hst
  obtain ⟨st₂, hdrop, hst⟩ := bind_eq_ok_iff.mp hst
  have h₁ := h.openHere (hK.other .blockMappingStart (by simp)) hopen
  have h₂ := (dropKey_alike hdrop).within ⟨h₁.place, h₁.tokens⟩
  cases hst
  exact h₂.cut hK (hK.other .key (by simp)) (reaches_next _) ⟨rfl, rfl⟩

theorem Within.valueMark (h : st.Within K A) (hst : st.valueMark = .ok st') : st'.Within K A := by
  have hstart : A .blockMappingStart := hK.other _ (by simp)
  have hvalue : A .value := hK.other _ (by simp)
  unfold ScanState.valueMark at hst
  dsimp only at hst
  split at hst
  · rename_i k hkey
    have hfree : st.forgetKey.Within K A := ⟨h.place, h.tokens⟩
    have hkeyed := hfree.insert (hK.other .key (by simp)) k.token
    cases hst
    exact (Within.ite hkeyed (hkeyed.openBlock k.column hstart k.token)).cut hK hvalue
      (reaches_next _) ⟨rfl, rfl⟩
  · obtain ⟨st₁, hopen, hst⟩ := bind_eq_ok_iff.mp hst
    obtain ⟨st₂, hdrop, hst⟩ := bind_eq_ok_iff.mp hst
    have h₁ := h.openHere hstart hopen
    have h₂ := (dropKey_alike hdrop).within ⟨h₁.place, h₁.tokens⟩
    cases hst
    exact h₂.cut hK hvalue (reaches_next _) ⟨rfl, rfl⟩

end

theorem reaches_skipBlanks (st : ScanState) (fuel : Nat) (c : Cursor) (mayKey : Bool) :
    c.Reaches (st.skipBlanks fuel c mayKey).1 := by
  induction fuel generalizing c mayKey with
  | zero => exact .refl c
  | succ fuel ih =>
    rw [skipBlanks]
    have hblanks := c.reaches_skip fun ch => ch == ' ' || (st.inFlow && ch == '\t')
    generalize (c.skip fun ch => ch == ' ' || (st.inFlow && ch == '\t')) = c₁ at hblanks ⊢
    have hcomment := hblanks.trans (c₁.reaches_comment (c₁.peek? == some '#'))
    generalize (if (c₁.peek? == some '#') = true then c₁.skip (!isLineStop ·) else c₁) = c₂
      at hcomment ⊢
    cases hb : c₂.lineBreak? with
    | some x => exact hcomment.trans ((reaches_lineBreak hb).trans (ih ..))
    | none => exact hcomment

variable (hK : Admits K A)
include hK

theorem Within.token (h : st.Within K A) {c : Char} (hc : st.cursor.peek? = some c)
    (hst : st.token c = .ok st') : st'.Within K A := by
  unfold ScanState.token at hst
  rcases ite_eq_ok_cases hst with ⟨hsign, hst⟩ | ⟨-, hst⟩
  · simp only [Bool.and_eq_true, beq_iff_eq] at hsign
    exact h.directive hK hsign.2 (hsign.1 ▸ hc) hst
  rcases ite_eq_ok_cases hst with ⟨-, hst⟩ | ⟨-, hst⟩
  · exact h.documentMarker hK (hK.other _ (by simp)) hst
  rcases ite_eq_ok_cases hst with ⟨-, hst⟩ | ⟨-, hst⟩
  · exact h.documentMarker hK (hK.other _ (by simp)) hst
  rcases ite_eq_ok_cases hst with ⟨-, hst⟩ | ⟨-, hst⟩
  · exact h.flowStart hK (hK.other _ (by simp)) hst
  rcases ite_eq_ok_cases hst with ⟨-, hst⟩ | ⟨-, hst⟩
  · exact h.flowStart hK (hK.other _ (by simp)) hst
  rcases ite_eq_ok_cases hst with ⟨-, hst⟩ | ⟨-, hst⟩
  · exact h.flowEnd hK (hK.other _ (by simp)) hst
  rcases ite_eq_ok_cases hst with ⟨-, hst⟩ | ⟨-, hst⟩
  · exact h.flowEnd hK (hK.other _ (by simp)) hst
  rcases ite_eq_ok_cases hst with ⟨-, hst⟩ | ⟨-, hst⟩
  · exact h.flowEntry hK hst
  rcases ite_eq_ok_cases hst with ⟨-, hst⟩ | ⟨-, hst⟩
  · exact h.blockEntry hK hst
  rcases ite_eq_ok_cases hst with ⟨-, hst⟩ | ⟨-, hst⟩
  · exact h.keyMark hK hst
  rcases ite_eq_ok_cases hst with ⟨-, hst⟩ | ⟨-, hst⟩
  · exact h.valueMark hK hst
  rcases ite_eq_ok_cases hst with ⟨-, hst⟩ | ⟨-, hst⟩
  · exact h.anchorOrReference hK (fun name => hK.other _ (by simp)) hst
  rcases ite_eq_ok_cases hst with ⟨-, hst⟩ | ⟨-, hst⟩
  · exact h.anchorOrReference hK (fun name => hK.other _ (by simp)) hst
  rcases ite_eq_ok_cases hst with ⟨-, hst⟩ | ⟨-, hst⟩
  · exact h.tag hK hst
  rcases ite_eq_ok_cases hst with ⟨-, hst⟩ | ⟨-, hst⟩
  · exact h.blockScalar hK hst
  rcases ite_eq_ok_cases hst with ⟨-, hst⟩ | ⟨-, hst⟩
  · exact h.blockScalar hK hst
  rcases ite_eq_ok_cases hst with ⟨-, hst⟩ | ⟨-, hst⟩
  · exact h.quotedScalar hK hst
  rcases ite_eq_ok_cases hst with ⟨-, hst⟩ | ⟨-, hst⟩
  · exact h.quotedScalar hK hst
  rcases ite_eq_ok_cases hst with ⟨-, hst⟩ | ⟨-, hst⟩
  · exact h.plainScalar hK hst
  · cases hst

theorem Within.finish (h : st.Within K A) (hst : st.finish = .ok st') : st'.Within K A := by
  obtain ⟨st₁, hdrop, hst⟩ := bind_eq_ok_iff.mp hst
  cases hst
  exact (h.closed hK hdrop).cut hK (hK.other .streamEnd (by simp)) (.refl _) ⟨rfl, rfl⟩

theorem Within.fetch (h : st.Within K A) (hst : st.fetch = .ok st') : st'.Within K A := by
  obtain ⟨st₁, hdrop, hst⟩ := bind_eq_ok_iff.mp hst
  have h₁ : st₁.Within K A := (dropStale_alike hdrop).within
    ⟨hK.reaches h.place (reaches_skipBlanks ..), h.tokens⟩
  have h₂ := h₁.closeBlocks (hK.other _ (by simp)) (some st₁.cursor.column)
  dsimp only at hst
  split at hst
  · exact h₂.finish hK hst
  · rename_i c hc
    exact h₂.token hK hc hst

/-- What is known of a scan is known until its next token is certain. -/
theorem Within.fill (h : st.Within K A) {fuel : Nat} (hst : fill fuel st = .ok st') :
    st'.Within K A := by
  induction fuel generalizing st with
  | zero =>
    cases hst
    exact h
  | succ fuel ih =>
    unfold ScanState.fill at hst
    split_ifs at hst
    · cases hst
      exact h
    · obtain ⟨st₁, hfetch, hst⟩ := bind_eq_ok_iff.mp hst
      exact ih (h.fetch hK hfetch) hst
    · obtain ⟨st₁, hdrop, hst⟩ := bind_eq_ok_iff.mp hst
      have h₁ := (dropStale_alike hdrop).within h
      split_ifs at hst
      · obtain ⟨st₂, hfetch, hst⟩ := bind_eq_ok_iff.mp hst
        exact ih (h₁.fetch hK hfetch) hst
      · cases hst
        exact h₁

theorem Within.ready (h : st.Within K A) (hst : st.ready = .ok st') :
    st'.Within K A ∧ A (st'.tokens.headD .streamEnd) := by
  have h' := h.fill hK hst
  refine ⟨h', ?_⟩
  cases htokens : st'.tokens with
  | nil => exact hK.other _ (by simp)
  | cons t ts => exact h'.tokens t (by simp [htokens])

omit hK in
theorem Within.take (h : st.Within K A) : st.take.Within K A :=
  ⟨h.place, fun t ht => h.tokens t (List.mem_of_mem_tail ht)⟩

end ScanState

end ImportGroups.Yaml
