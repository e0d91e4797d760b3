import ImportGroups.Proofs.LeadingComment.Straight
import ImportGroups.Proofs.Reading.Alone

/-!
A comment line before a file.

The comment only shifts what the reader finds, as long as the reader keeps its reading of the file. It
keeps every reading of one version alone, such as that of a header with complete items behind it. It
need not keep that of a file which it gives up as a whole, since the fault then starts with the comment.
-/

namespace ImportGroups

open Text (Bytes)
open Header (LineBreak)
open Body (Item itemBytes)
open Source (Event Mark Straight Tree readSource)

/-- Behind the comment the reader finds what it finds without it, further down. -/
def KeepsReading (c : LineComment) (source : Bytes) : Prop :=
  (readSource (c.bytes ++ source)).events =
    (readSource source).events.map (Event.down c.bytes.length)

instance (c : LineComment) (source : Bytes) : Decidable (KeepsReading c source) :=
  inferInstanceAs (Decidable (_ = _))

theorem sourceImports_of_keepsReading {c : LineComment} {source : Bytes}
    (h : KeepsReading c source) :
    sourceImports (c.bytes ++ source) = importsDown c.bytes.length (sourceImports source) := by
  rw [sourceImports, sourceImports, h, List.length_append, Nat.add_comm,
    Source.importsOfEvents_down]

theorem Source.Straight.keepsReading (c : LineComment) {source : Bytes} {tree : Tree}
    (h : Straight source tree)
    (hbom : (Mark.ofSource source).skipByteOrderMark = .ofSource source) :
    KeepsReading c source := by
  obtain ⟨tree', hbehind, hevents⟩ := h.behind c hbom
  rw [KeepsReading, readSource, readSource, hbehind.readTree, h.readTree]
  exact hevents

theorem keepsReading_items (c : LineComment) (h : Header) (items : List (Item × LineBreak)) :
    KeepsReading c (h.bytes ++ itemBytes items) := by
  obtain ⟨tree, hstraight, -⟩ := Source.straight_items h items
  apply hstraight.keepsReading c
  apply Source.skipByteOrderMark_lead
  simp only [Mark.ofSource, Header.bytes, Header.clauseBytes, List.append_assoc]
  exact rfl

/-- The reader keeps its reading of a header with complete items behind it, and of every file that one
version reads from its beginning to its end. Of any file of which it keeps its reading the imports are
moved, and the verdict on them stays. -/
theorem imports_behind_comment (c : LineComment) :
    (∀ (h : Header) (items : List (Item × LineBreak)), KeepsReading c (h.bytes ++ itemBytes items)) ∧
    (∀ (source : Bytes) (tree : Tree), ¬[0xEF, 0xBB, 0xBF] <+: source → Straight source tree →
      KeepsReading c source) ∧
    ∀ source : Bytes, KeepsReading c source →
      sourceImports (c.bytes ++ source) = importsDown c.bytes.length (sourceImports source) ∧
      ∀ root records, sourceImports source = .ok records →
        ∃ moved, sourceImports (c.bytes ++ source) = .ok moved ∧
          analyze root moved = analyze root records := by
  refine ⟨keepsReading_items c, fun source tree hbom h => ?_, fun source h => ?_⟩
  · refine h.keepsReading c ?_
    simp [Mark.skipByteOrderMark, Mark.ofSource, hbom]
  · have himports := sourceImports_of_keepsReading h
    refine ⟨himports, fun root records hrecords => ?_⟩
    rw [hrecords] at himports
    exact ⟨_, himports, analyze_down root _ records⟩

def bareComment : LineComment := ⟨[], by simp⟩

/-- A file with comments, and one with an error behind its header. -/
theorem imports_behind_bareComment :
    let commented := Text.encodeUtf8 "// a\npackage p // b\n\nfunc f() \x7b // c\n\x7d\n"
    let faulty := Text.encodeUtf8 "package p\nimport \"fmt\"\nvar x = \n"
    KeepsReading bareComment commented ∧
      (readSource faulty).hasFault = true ∧ KeepsReading bareComment faulty ∧
      sourceImports (bareComment.bytes ++ faulty) = .ok [⟨"fmt", 20, 25⟩] := by
  intro commented faulty
  obtain ⟨tree, hstraight⟩ : ∃ tree, Straight commented tree :=
    Source.exists_straight (by decide +kernel)
  have hbom : ¬[0xEF, 0xBB, 0xBF] <+: commented := by decide +kernel
  obtain ⟨hfault, hkeeps, himports⟩ : (readSource faulty).hasFault = true ∧
      KeepsReading bareComment faulty ∧
      importsDown bareComment.bytes.length (sourceImports faulty) = .ok [⟨"fmt", 20, 25⟩] := by
    decide +kernel
  obtain ⟨-, hcommented, hfaulty⟩ := imports_behind_comment bareComment
  exact ⟨hcommented _ tree hbom hstraight, hfault, hkeeps, (hfaulty _ hkeeps).1.trans himports⟩

theorem comment_gives_up :
    ∃ source, sourceImports source = .error (.syntaxError 1) ∧
      sourceImports (bareComment.bytes ++ source) = .error (.syntaxError 1) := by
  refine ⟨Text.encodeUtf8 "package p\n[`b`)\x7b`", ?_⟩
  decide +kernel

end ImportGroups
