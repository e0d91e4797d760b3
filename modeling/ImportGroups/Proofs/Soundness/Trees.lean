import ImportGroups.Proofs.Reading.Marks
import ImportGroups.Proofs.Reading.Outline
import Mathlib.Tactic.SplitIfs

/-!
Trees that fit their source.

The parts of a tree lie inside of it, one behind the other. A quote or a closing parenthesis is the
byte that stands there, unless it was put in; a literal goes from a quote that was read to a closing
one; and an import spec ends with its path and holds no other spec.
-/

namespace ImportGroups.Source

open Text (Bytes)

def Mark.On (src : Bytes) (m : Mark) : Prop := m.offset ≤ src.length ∧ m.rest = src.drop m.offset

namespace Mark

variable {src : Bytes} {m : Mark}

theorem on_ofSource (src : Bytes) : (ofSource src).On src := ⟨Nat.zero_le _, rfl⟩

theorem On.step (h : m.On src) : m.step.On src ∧ m.offset ≤ m.step.offset := by
  obtain ⟨hle, hrest⟩ := h
  unfold Mark.step
  cases hr : m.rest with
  | nil => exact ⟨⟨hle, hrest⟩, Nat.le_refl _⟩
  | cons b bs =>
    have hlen : m.rest.length = src.length - m.offset := by rw [hrest, List.length_drop]
    rw [hr, List.length_cons] at hlen
    refine ⟨⟨by simp; omega, ?_⟩, by simp⟩
    have htail : m.rest.drop 1 = src.drop (m.offset + 1) := by rw [hrest, List.drop_drop]
    rwa [hr] at htail

theorem On.advance (h : m.On src) (n : Nat) :
    (m.advance n).On src ∧ m.offset ≤ (m.advance n).offset := by
  induction n generalizing m with
  | zero => exact ⟨h, Nat.le_refl _⟩
  | succ n ih =>
    obtain ⟨hon, hle⟩ := ih h.step.1
    exact ⟨hon, Nat.le_trans h.step.2 hle⟩

theorem On.skipByteOrderMark (h : m.On src) :
    m.skipByteOrderMark.On src ∧ m.offset ≤ m.skipByteOrderMark.offset := by
  unfold Mark.skipByteOrderMark
  split
  · exact h.advance 3
  · exact ⟨h, Nat.le_refl _⟩

theorem On.skipBlanks (h : m.On src) (lines : Bool) :
    (m.skipBlanks lines).On src ∧ m.offset ≤ (m.skipBlanks lines).offset :=
  h.advance _

/-- A reader that finds no token looks past blanks at least. -/
theorem On.reach (h : m.On src) : m.reach.On src ∧
    (m.skipByteOrderMark.skipBlanks true).offset ≤ m.reach.offset := by
  have hbom := h.skipByteOrderMark.1
  unfold Mark.reach
  dsimp only
  split
  · rename_i hslash
    have hskip : m.skipByteOrderMark.skipBlanks true = m.skipByteOrderMark := by
      cases hr : m.skipByteOrderMark.rest with
      | nil => simp [hr] at hslash
      | cons b bs =>
        obtain rfl : b = backslashByte := by simpa [hr] using hslash
        simp [Mark.skipBlanks, hr, isBlankByte, backslashByte, Mark.advance]
    rw [hskip]
    exact hbom.advance _
  · exact (hbom.skipBlanks true).1.advance _

theorem On.le_reach (h : m.On src) : m.offset ≤ m.reach.offset :=
  Nat.le_trans (Nat.le_trans h.skipByteOrderMark.2 (h.skipByteOrderMark.1.skipBlanks true).2)
    h.reach.2

theorem On.unknownEnd (h : m.On src) (fuel : Nat) :
    (unknownEnd fuel m).On src ∧ m.offset ≤ (unknownEnd fuel m).offset := by
  induction fuel generalizing m with
  | zero => exact ⟨h, Nat.le_refl _⟩
  | succ fuel ih =>
    unfold Source.unknownEnd
    split_ifs
    · exact ⟨h, Nat.le_refl _⟩
    · obtain ⟨hon, hle⟩ := ih (h.advance (charLength m.rest)).1
      exact ⟨hon, Nat.le_trans (h.advance _).2 hle⟩
    · obtain ⟨hon, hle⟩ := ih h.reach.1
      exact ⟨hon, Nat.le_trans h.le_reach hle⟩

theorem On.unknown (h : m.On src) : m.unknown.1.On src ∧ m.unknown.2.On src ∧
    m.offset ≤ m.unknown.1.offset ∧ m.unknown.1.offset ≤ m.unknown.2.offset := by
  have hbom := h.skipByteOrderMark
  have hstart := hbom.1.skipBlanks true
  have hfirst : ∀ first : Mark,
      first = (if m.reach.offset == (m.skipByteOrderMark.skipBlanks true).offset
        then (m.skipByteOrderMark.skipBlanks true).advance
          (charLength (m.skipByteOrderMark.skipBlanks true).rest)
        else m.reach) →
      first.On src ∧ (m.skipByteOrderMark.skipBlanks true).offset ≤ first.offset := by
    rintro first rfl
    split_ifs
    · exact hstart.1.advance _
    · exact h.reach
  obtain ⟨hon, hle⟩ := hfirst _ rfl
  obtain ⟨hend, hle'⟩ := hon.unknownEnd m.rest.length
  exact ⟨hstart.1, hend, Nat.le_trans hbom.2 hstart.2, Nat.le_trans hle hle'⟩

end Mark

def Symbol.signByte? : Symbol → Option UInt8
  | quote | closingQuote => some quoteByte
  | rawQuote => some rawQuoteByte
  | rightParen => some 0x29
  | _ => none

namespace Tree

/-- The trees stand side by side between two offsets, in the order of the source. -/
def Between : List Tree → Nat → Nat → Prop
  | [], a, b => a ≤ b
  | t :: ts, a, b =>
    a ≤ t.start.offset ∧ t.start.offset ≤ t.stop.offset ∧ Between ts t.stop.offset b

inductive Specless : Tree → Prop where
  | intro {t : Tree} : t.label ≠ .phrase .importSpec → (∀ c ∈ t.children, Specless c) → Specless t

structure Spells (src : Bytes) (b : UInt8) (t : Tree) : Prop where
  missing : t.missing = false
  byte : src[t.start.offset]? = some b
  stop : t.stop.offset = t.start.offset + 1

structure IsPutIn (t : Tree) : Prop where
  missing : t.missing = true
  stop : t.stop = t.start

/-- A token holds no other trees. If it is a quote or a closing parenthesis then it stands in the
source, or it was put in; no quote is put in that opens a string. -/
structure IsTokenOf (src : Bytes) (s : Symbol) (t : Tree) : Prop where
  children : t.children = []
  sign : ∀ b ∈ s.signByte?, t.Spells src b ∨ s ≠ .quote ∧ t.IsPutIn

/-- The tree reaches from an opening quote that was read to a closing one. -/
structure IsQuotation (opening closing : Symbol) (t : Tree) : Prop where
  parts : ∃ first inner last, t.children = first :: (inner ++ [last]) ∧
    first.label = .token opening ∧ first.missing = false ∧ last.label = .token closing ∧
    t.start = first.start ∧ t.stop = last.stop
  specless : t.Specless

structure IsSpec (t : Tree) : Prop where
  path : ∃ before path, t.children = before ++ [path] ∧ path.isString = true
  specless : ∀ c ∈ t.children, c.Specless

def Shaped (src : Bytes) (t : Tree) : Prop :=
  match t.label with
  | .token s => t.IsTokenOf src s
  | .phrase .string => t.IsQuotation .quote .closingQuote
  | .phrase .rawString => t.IsQuotation .rawQuote .rawQuote
  | .phrase .dotName => t.Specless
  | .phrase .importSpec => t.IsSpec
  | _ => True

theorem shaped_of_not_mem {src : Bytes} {t : Tree} {p : Phrase} (hl : t.label = .phrase p)
    (hp : p ∉ [Phrase.importSpec, .dotName, .string, .rawString]) : t.Shaped src := by
  unfold Shaped
  rw [hl]
  split <;> first | trivial | simp_all

inductive Sound (src : Bytes) : Tree → Prop where
  | intro {t : Tree} (start : t.start.On src) (stop : t.stop.On src)
      (between : Between t.children t.start.offset t.stop.offset)
      (size : t.size = total t.children + 1) (shaped : t.Shaped src)
      (children : ∀ c ∈ t.children, Sound src c) : Sound src t

variable {src : Bytes} {t : Tree} {ts us : List Tree} {a b c : Nat}

theorem Between.le (h : Between ts a b) : a ≤ b := by
  induction ts generalizing a with
  | nil => exact h
  | cons t ts ih =>
    have := ih h.2.2
    have := h.1
    have := h.2.1
    omega

theorem Between.mono {a' b' : Nat} (h : Between ts a b) (ha : a' ≤ a) (hb : b ≤ b') :
    Between ts a' b' := by
  induction ts generalizing a a' with
  | nil => exact Nat.le_trans (Nat.le_trans ha h) hb
  | cons t ts ih => exact ⟨Nat.le_trans ha h.1, h.2.1, ih h.2.2 (Nat.le_refl _)⟩

theorem Between.append (h : Between ts a b) (h' : Between us b c) : Between (ts ++ us) a c := by
  induction ts generalizing a with
  | nil => exact h'.mono h (Nat.le_refl _)
  | cons t ts ih => exact ⟨h.1, h.2.1, ih h.2.2⟩

theorem Between.of_append (h : Between (ts ++ us) a c) :
    Between ts a ((ts.getLast?.map (·.stop.offset)).getD a) ∧
      Between us ((ts.getLast?.map (·.stop.offset)).getD a) c := by
  induction ts generalizing a with
  | nil => exact ⟨Nat.le_refl _, h⟩
  | cons t ts ih =>
    have hlast : ((t :: ts).getLast?.map (·.stop.offset)).getD a =
        (ts.getLast?.map (·.stop.offset)).getD t.stop.offset := by
      cases ts <;> simp [List.getLast?_eq_some_getLast]
    rw [hlast]
    exact ⟨⟨h.1, h.2.1, (ih h.2.2).1⟩, (ih h.2.2).2⟩

theorem Between.tight (h : Between ts a b) (hne : ts ≠ []) {m n : Mark}
    (hm : ts.head?.map (·.start) = some m) (hn : ts.getLast?.map (·.stop) = some n) :
    Between ts m.offset n.offset ∧ a ≤ m.offset ∧ n.offset ≤ b := by
  induction ts generalizing a m with
  | nil => exact absurd rfl hne
  | cons t ts ih =>
    obtain rfl : t.start = m := by simpa using hm
    cases ts with
    | nil =>
      obtain rfl : t.stop = n := by simpa using hn
      exact ⟨⟨Nat.le_refl _, h.2.1, Nat.le_refl _⟩, h.1, h.2.2⟩
    | cons u us =>
      obtain ⟨hbetween, hle, hb⟩ := ih h.2.2 (by simp) rfl (by simpa using hn)
      exact ⟨⟨Nat.le_refl _, h.2.1, hbetween.mono hle (Nat.le_refl _)⟩, h.1, hb⟩

namespace Sound

theorem start (h : Sound src t) : t.start.On src := by cases h; assumption

theorem stop (h : Sound src t) : t.stop.On src := by cases h; assumption

theorem between (h : Sound src t) : Between t.children t.start.offset t.stop.offset := by
  cases h; assumption

theorem shaped (h : Sound src t) : t.Shaped src := by cases h; assumption

theorem children (h : Sound src t) : ∀ c ∈ t.children, Sound src c := by cases h; assumption

theorem size (h : Sound src t) : t.size = total t.children + 1 := by cases h; assumption

theorem le (h : Sound src t) : t.start.offset ≤ t.stop.offset := h.between.le

theorem isTokenOf {s : Symbol} (h : Sound src t) (hs : t.label = .token s) :
    t.IsTokenOf src s := by
  have hshaped := h.shaped
  simpa only [Shaped, hs] using hshaped

theorem specless_of_token {s : Symbol} (h : Sound src t) (hs : t.label = .token s) :
    t.Specless :=
  .intro (by simp [hs]) (by simp [(h.isTokenOf hs).children])

theorem counted (h : Sound src t) : Counted t := by
  induction h with
  | intro _ _ _ size _ _ ih => exact .intro size ih

end Sound

/-- The trees say the same about the source. They may differ in rank, and one of them may stand
anywhere. -/
structure Alike (t t' : Tree) : Prop where
  label : t'.label = t.label
  children : t'.children = t.children
  start : t'.start = t.start
  stop : t'.stop = t.stop
  missing : t'.missing = t.missing
  size : t'.size = t.size

namespace Alike

variable {t' : Tree}

theorem specless (h : Alike t t') (ht : t.Specless) : t'.Specless := by
  cases ht with
  | intro hl hc => exact .intro (h.label ▸ hl) (h.children ▸ hc)

theorem isTokenOf {s : Symbol} (h : Alike t t') (ht : t.IsTokenOf src s) : t'.IsTokenOf src s := by
  refine ⟨h.children ▸ ht.children, fun b hb => (ht.sign b hb).imp (fun hs => ?_) (fun hs => ?_)⟩
  · exact ⟨h.missing ▸ hs.missing, h.start ▸ hs.byte, by rw [h.stop, h.start, hs.stop]⟩
  · exact ⟨hs.1, h.missing ▸ hs.2.missing, by rw [h.stop, h.start, hs.2.stop]⟩

theorem isQuotation {o c : Symbol} (h : Alike t t') (ht : t.IsQuotation o c) : t'.IsQuotation o c :=
  ⟨by rw [h.children, h.start, h.stop]; exact ht.parts, h.specless ht.specless⟩

theorem shaped (h : Alike t t') (ht : t.Shaped src) : t'.Shaped src := by
  rw [Shaped] at ht
  rw [Shaped, h.label]
  split at ht
  · exact h.isTokenOf ht
  · exact h.isQuotation ht
  · exact h.isQuotation ht
  · exact h.specless ht
  · exact ⟨h.children ▸ ht.path, h.children ▸ ht.specless⟩
  · exact ht

theorem sound (h : Alike t t') (ht : Sound src t) : Sound src t' :=
  .intro (h.start ▸ ht.start) (h.stop ▸ ht.stop) (by rw [h.children, h.start, h.stop]; exact ht.between)
    (by rw [h.children, h.size]; exact ht.size) (h.shaped ht.shaped) (h.children ▸ ht.children)

end Alike

/-- A tree of sound parts fits the source if its label says nothing wrong about them. -/
theorem sound_node {label : Label} {here : Mark} (hhere : here.On src)
    (hts : ∀ t ∈ ts, Sound src t) (hbetween : Between ts a b)
    (hshaped : (Tree.node label ts here).Shaped src) : Sound src (.node label ts here) := by
  have hsize : (node label ts here).size = total (node label ts here).children + 1 :=
    (counted_node fun t ht => (hts t ht).counted).size
  by_cases hne : ts = []
  · subst hne
    exact .intro hhere hhere (Nat.le_refl _) hsize hshaped (by simp [node])
  · have hfirst := List.head?_eq_some_head hne
    have hlast := List.getLast?_eq_some_getLast hne
    have hstart : (node label ts here).start = (ts.head hne).start := by simp [node, hfirst]
    have hstop : (node label ts here).stop = (ts.getLast hne).stop := by simp [node, hlast]
    have htight := hbetween.tight hne (m := (ts.head hne).start) (n := (ts.getLast hne).stop)
      (by simp [hfirst]) (by simp [hlast])
    refine .intro ?_ ?_ ?_ hsize hshaped hts
    · rw [hstart]
      exact (hts _ (List.head_mem hne)).start
    · rw [hstop]
      exact (hts _ (List.getLast_mem hne)).stop
    · rw [hstart, hstop]
      exact htight.1

end Tree

end ImportGroups.Source
