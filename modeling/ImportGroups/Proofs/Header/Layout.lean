import ImportGroups.Grouping
import ImportGroups.Proofs.Reading.Lexing
import ImportGroups.Proofs.Utf8

/-!
Headers of Go files as they are written.

A header has a package clause and any number of import declarations, each on its own line, with any
white space where white space may stand. Its text and the import records that belong to it are plain
functions of its parts.
-/

namespace ImportGroups

open Text (Bytes)
open Source (isBlankByte isWord lineFeed quoteByte rawQuoteByte)

namespace Header

structure Blanks where
  bytes : Bytes
  blank : ∀ b ∈ bytes, isBlankByte b = true

structure Space extends Blanks where
  nonempty : bytes ≠ []

structure LineBreak extends Blanks where
  breaks : lineFeed ∈ bytes

def spaceByte : UInt8 := 0x20

theorem isBlankByte_spaceByte : isBlankByte spaceByte = true := by decide

def oneSpace : Space where
  bytes := [spaceByte]
  blank := by simp [isBlankByte_spaceByte]
  nonempty := List.cons_ne_nil _ _

def oneLineFeed : LineBreak where
  bytes := [lineFeed]
  blank := by simp [Source.isBlankByte_lineFeed]
  breaks := List.mem_singleton_self _

/-- The keywords of Go, and the constants that every file knows. -/
def takenWords : List Bytes :=
  (Source.Symbol.reservedWords.map (·.1) ++ ["nil", "true", "false", "iota"]).map Text.encodeUtf8

structure Name where
  bytes : Bytes
  word : isWord bytes = true
  free : bytes ∉ takenWords

theorem Name.ne_nil (n : Name) : n.bytes ≠ [] := by
  intro hnil
  have hword := n.word
  simp [hnil, isWord] at hword

inductive Alias where
  | dot
  /-- A name of its own, or an underscore. -/
  | name (n : Name)

def dotByte : UInt8 := 0x2E

def Alias.bytes : Alias → Bytes
  | dot => [dotByte]
  | name n => n.bytes

inductive Style where
  | quoted
  | raw

def Style.byte : Style → UInt8
  | quoted => quoteByte
  | raw => rawQuoteByte

/-- A path that reads the same in both styles. -/
structure ImportPath where
  text : String
  clean : ∀ c ∈ text.toList, c ∉ ['"', '`', '\\', '\r', '\n', '\x00']

def ImportPath.bytes (p : ImportPath) : Bytes := Text.encodeUtf8 p.text

theorem ImportPath.toNat_ne {p : ImportPath} {b : UInt8} (hb : b ∈ p.bytes) :
    ∀ c ∈ ['"', '`', '\\', '\r', '\n', '\x00'], b.toNat ≠ c.toNat := by
  intro c hc heq
  have hsmall : ∀ c ∈ ['"', '`', '\\', '\r', '\n', '\x00'], c.toNat < 0x80 := by simp
  rw [ImportPath.bytes, Text.encodeUtf8_eq, List.mem_flatMap] at hb
  obtain ⟨d, hd, hbd⟩ := hb
  rcases Text.mem_utf8EncodeChar hbd with ⟨_, hsame⟩ | hlarge
  · have hcd : c = d := Char.toNat_inj.mp (heq.symm.trans hsame)
    exact p.clean d hd (hcd ▸ hc)
  · have := hsmall c hc
    omega

theorem ImportPath.isContentByte {p : ImportPath} {b : UInt8} (hb : b ∈ p.bytes) :
    Source.isContentByte b = true := by
  have hne := ImportPath.toNat_ne hb
  simp only [Source.isContentByte, Bool.and_eq_true, bne_iff_ne, ne_eq, ← UInt8.toNat_inj]
  exact ⟨⟨⟨hne '"' (by simp), hne '\\' (by simp)⟩, hne '\n' (by simp)⟩, hne '\x00' (by simp)⟩

theorem ImportPath.isRawByte {p : ImportPath} {b : UInt8} (hb : b ∈ p.bytes) :
    b ≠ rawQuoteByte ∧ b ≠ 0 := by
  have hne := ImportPath.toNat_ne hb
  simp only [ne_eq, ← UInt8.toNat_inj]
  exact ⟨hne '`' (by simp), hne '\x00' (by simp)⟩

/-- An import spec: an alias with the white space after it, if there is one, and a path. -/
structure Spec where
  alias? : Option (Alias × Blanks)
  style : Style
  path : ImportPath

namespace Spec

def label (s : Spec) : Bytes :=
  match s.alias? with
  | none => []
  | some (a, w) => a.bytes ++ w.bytes

def literal (s : Spec) : Bytes := s.style.byte :: (s.path.bytes ++ [s.style.byte])

def bytes (s : Spec) : Bytes := s.label ++ s.literal

theorem head?_bytes (s : Spec) {more : Bytes} : ∀ b ∈ (s.bytes ++ more).head?, isBlankByte b = false := by
  intro b hb
  have hstyle : ∀ style : Style, isBlankByte style.byte = false := by
    rintro (_ | _) <;> decide
  obtain ⟨alias?, style, path⟩ := s
  cases alias? with
  | none =>
    obtain rfl : style.byte = b := by simpa [bytes, label, literal] using hb
    exact hstyle style
  | some x =>
    obtain ⟨a, w⟩ := x
    cases a with
    | dot =>
      obtain rfl : dotByte = b := by simpa [bytes, label, Alias.bytes] using hb
      decide
    | name n =>
      have hword := n.word
      cases hn : n.bytes with
      | nil => simp [hn, isWord] at hword
      | cons c bs =>
        obtain rfl : c = b := by simpa [bytes, label, Alias.bytes, hn] using hb
        rw [hn] at hword
        simp only [isWord, Bool.and_eq_true] at hword
        exact Source.isBlankByte_of_isWordStart hword.1

def record (offset : Nat) (s : Spec) : Record :=
  ⟨s.path.text, offset, ↑(offset + s.bytes.length)⟩

end Spec

def leftParenByte : UInt8 := 0x28
def rightParenByte : UInt8 := 0x29

structure Block where
  lead : Blanks
  first : Spec
  /-- The other specs, each with the white space before it. -/
  more : List (LineBreak × Spec)
  tail : Blanks

namespace Block

def moreBytes (more : List (LineBreak × Spec)) : Bytes :=
  more.flatMap fun (w, s) => w.bytes ++ s.bytes

def bytes (b : Block) : Bytes :=
  leftParenByte :: (b.lead.bytes ++ (b.first.bytes ++ (moreBytes b.more ++
    (b.tail.bytes ++ [rightParenByte]))))

def recordsFrom (offset : Nat) (s : Spec) : List (LineBreak × Spec) → List Record
  | [] => [s.record offset]
  | (w, s') :: more =>
    s.record offset :: recordsFrom (offset + s.bytes.length + w.bytes.length) s' more

def records (offset : Nat) (b : Block) : List Record :=
  recordsFrom (offset + 1 + b.lead.bytes.length) b.first b.more

end Block

inductive Declaration where
  | single (gap : Space) (spec : Spec)
  | empty (gap inner : Blanks)
  | block (gap : Blanks) (block : Block)

def importBytes : Bytes := Text.encodeUtf8 "import"

theorem isWord_importBytes : isWord importBytes = true := by decide

namespace Declaration

/-- What stands behind the word `import`. -/
def inside : Declaration → Bytes
  | single gap spec => gap.bytes ++ spec.bytes
  | empty gap inner => gap.bytes ++ leftParenByte :: (inner.bytes ++ [rightParenByte])
  | block gap b => gap.bytes ++ b.bytes

def bytes (d : Declaration) : Bytes := importBytes ++ d.inside

theorem head?_inside (d : Declaration) {more : Bytes} :
    ∀ b ∈ (d.inside ++ more).head?, Source.isWordEnd b = true := by
  have hgap : ∀ (gap : Blanks) (bs : Bytes),
      ∀ b ∈ (gap.bytes ++ leftParenByte :: bs ++ more).head?, Source.isWordEnd b = true := by
    intro gap bs b hb
    cases hg : gap.bytes with
    | nil =>
      obtain rfl : leftParenByte = b := by simpa [hg] using hb
      decide
    | cons c cs =>
      obtain rfl : c = b := by simpa [hg] using hb
      exact Source.isWordEnd_of_isBlankByte (gap.blank c (by simp [hg]))
  intro b hb
  cases d with
  | single gap spec =>
    cases hg : gap.bytes with
    | nil => exact absurd hg gap.nonempty
    | cons c cs =>
      obtain rfl : c = b := by simpa [inside, hg] using hb
      exact Source.isWordEnd_of_isBlankByte (gap.blank c (by simp [hg]))
  | empty gap inner => exact hgap gap _ b hb
  | block gap block => exact hgap gap _ b hb

def records (offset : Nat) : Declaration → List Record
  | single gap spec => [spec.record (offset + importBytes.length + gap.bytes.length)]
  | empty _ _ => []
  | block gap b => b.records (offset + importBytes.length + gap.bytes.length)

end Declaration

def packageBytes : Bytes := Text.encodeUtf8 "package"

theorem isWord_packageBytes : isWord packageBytes = true := by decide

def declBytes (decls : List (Declaration × LineBreak)) : Bytes :=
  decls.flatMap fun (d, w) => d.bytes ++ w.bytes

def declRecords (offset : Nat) : List (Declaration × LineBreak) → List Record
  | [] => []
  | (d, w) :: decls =>
    d.records offset ++ declRecords (offset + d.bytes.length + w.bytes.length) decls

end Header

structure Header where
  lead : Header.Blanks
  gap : Header.Space
  name : Header.Name
  stop : Header.LineBreak
  decls : List (Header.Declaration × Header.LineBreak)

namespace Header

/-- The text up to the first import declaration. -/
def clauseBytes (h : Header) : Bytes :=
  h.lead.bytes ++ (packageBytes ++ (h.gap.bytes ++ (h.name.bytes ++ h.stop.bytes)))

def bytes (h : Header) : Bytes := h.clauseBytes ++ declBytes h.decls

def records (h : Header) : List Record := declRecords h.clauseBytes.length h.decls

end Header

end ImportGroups
