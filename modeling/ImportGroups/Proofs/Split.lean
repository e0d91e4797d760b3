import ImportGroups.Text.Split
import Mathlib.Data.List.Chain
import Mathlib.Tactic.SplitIfs

/-!
A text and its pieces between the occurrences of a character.
-/

namespace ImportGroups

theorem intercalate_isPrefix {α : Type} (sep : List α) {xs ys : List (List α)} (h : xs <+: ys) :
    sep.intercalate xs <+: sep.intercalate ys := by
  obtain ⟨zs, rfl⟩ := h
  induction xs with
  | nil => exact List.nil_prefix
  | cons x xs ih =>
    cases xs with
    | nil => cases zs <;> simp [List.append_assoc]
    | cons y xs => simpa [List.append_assoc] using ih

namespace Text

theorem splitAt_ne_nil (c : Char) (cs : List Char) : splitAt c cs ≠ [] := by
  cases cs with
  | nil => simp [splitAt]
  | cons d ds =>
    unfold splitAt
    split_ifs
    · simp
    · split <;> simp

theorem intercalate_splitAt (c : Char) (cs : List Char) : [c].intercalate (splitAt c cs) = cs := by
  induction cs with
  | nil => rfl
  | cons d ds ih =>
    obtain ⟨p, ps, hp⟩ := List.exists_cons_of_ne_nil (splitAt_ne_nil c ds)
    rw [hp] at ih
    by_cases hd : d = c
    · simp [splitAt, hd, hp, ih]
    · cases ps with
      | nil => simp_all [splitAt]
      | cons q qs => simp_all [splitAt]

theorem splitAt_of_not_mem {c : Char} {cs : List Char} (h : c ∉ cs) : splitAt c cs = [cs] := by
  induction cs with
  | nil => rfl
  | cons d ds ih =>
    have hd : d ≠ c := fun hd => h (by simp [hd])
    simp [splitAt, hd, ih fun hds => h (List.mem_cons_of_mem d hds)]

theorem mem_splitAt {c d : Char} {cs piece : List Char} (hp : piece ∈ splitAt c cs)
    (hd : d ∈ piece) : d ∈ cs ∧ d ≠ c := by
  induction cs generalizing piece with
  | nil => simp_all [splitAt]
  | cons e es ih =>
    by_cases he : e = c
    · simp only [splitAt, he, beq_self_eq_true, if_true, List.mem_cons] at hp
      rcases hp with rfl | hp
      · simp at hd
      · exact (ih hp hd).imp_left (List.mem_cons_of_mem _)
    · simp only [splitAt, beq_eq_false_iff_ne.mpr he, Bool.false_eq_true, if_false] at hp
      split at hp
      · simp_all
      · rename_i q qs hq
        rcases List.mem_cons.mp hp with rfl | hp
        · rcases List.mem_cons.mp hd with rfl | hd
          · exact ⟨by simp, he⟩
          · exact (ih (hq ▸ List.mem_cons_self) hd).imp_left (List.mem_cons_of_mem _)
        · exact (ih (hq ▸ List.mem_cons_of_mem _ hp) hd).imp_left (List.mem_cons_of_mem _)

end Text

end ImportGroups
