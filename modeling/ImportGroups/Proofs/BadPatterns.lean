import ImportGroups.Check
import ImportGroups.Proofs.PatternClosure

/-!
Patterns that cannot be used.

Of the lines of an ignore file or of the patterns of a configuration the first one that is no pattern
decides. Only a lone mark of negation, an escape or a class can make a line one that is none.
-/

namespace ImportGroups

def FirstBadPattern (lines : List String) (e : PatternError) : Prop :=
  ∃ before line after, lines = before ++ line :: after ∧
    (∀ l ∈ before, ∃ p, Pattern.ofString l = .ok p) ∧ Pattern.ofString line = .error e

theorem firstBadPattern_cons {line : String} {lines : List String} {e : PatternError} :
    FirstBadPattern (line :: lines) e ↔
      Pattern.ofString line = .error e ∨
        (∃ p, Pattern.ofString line = .ok p) ∧ FirstBadPattern lines e := by
  constructor
  · rintro ⟨before, l, after, heq, hbefore, hl⟩
    cases before with
    | nil =>
      cases heq
      exact .inl hl
    | cons b before =>
      cases heq
      obtain ⟨hb, hbefore⟩ := List.forall_mem_cons.mp hbefore
      exact .inr ⟨hb, before, l, after, rfl, hbefore, hl⟩
  · rintro (h | ⟨hline, before, l, after, rfl, hbefore, hl⟩)
    · exact ⟨[], line, lines, rfl, by simp, h⟩
    · exact ⟨line :: before, l, after, rfl, List.forall_mem_cons.mpr ⟨hline, hbefore⟩, hl⟩

theorem ofLines_eq_error_iff {lines : List String} {e : PatternError} :
    PatternSpec.ofLines lines = .error e ↔ FirstBadPattern lines e := by
  rw [PatternSpec.ofLines, map_eq_error_iff]
  induction lines with
  | nil =>
    constructor
    · intro h
      cases h
    · rintro ⟨before, line, after, heq, -⟩
      simp at heq
  | cons line lines ih =>
    rw [firstBadPattern_cons]
    by_cases hline : line = ""
    · -- an empty line is passed over, and it would be a pattern
      subst hline
      rw [List.filter_cons_of_neg (by simp), ih]
      have hempty : Pattern.ofString "" = .ok ⟨false, .nothing⟩ := rfl
      simp [hempty]
    · rw [List.filter_cons_of_pos (by simpa using hline), List.mapM_cons, bind_eq_error_iff]
      refine or_congr_right ?_
      constructor
      · rintro ⟨p, hp, h⟩
        rcases bind_eq_error_iff.mp h with h | ⟨ps, -, h⟩
        · exact ⟨⟨p, hp⟩, ih.mp h⟩
        · cases h
      · rintro ⟨⟨p, hp⟩, h⟩
        exact ⟨p, hp, bind_eq_error_iff.mpr (.inl (ih.mpr h))⟩

theorem excludeSpec?_eq_error_iff {patterns : List String} {e : PatternError} :
    excludeSpec? patterns = .error e ↔ FirstBadPattern patterns e := by
  cases patterns with
  | nil =>
    rw [← ofLines_eq_error_iff]
    constructor <;> intro h <;> cases h
  | cons line lines => rw [excludeSpec?, map_eq_error_iff, ofLines_eq_error_iff]; simp

namespace Pattern

end Pattern

end ImportGroups
