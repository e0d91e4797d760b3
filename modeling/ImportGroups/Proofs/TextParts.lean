import ImportGroups.Text.Split
import Mathlib.Data.List.Basic

/-!
Parts of a text that can be read back.

A part whose characters are all of one kind ends where the kind ends. So numbers end before a blank,
and texts without a separator can be told from their list.
-/

namespace ImportGroups

section

variable {α : Type} {xs ys s t : List α}

/-- Two texts that start with members of a class are cut at their first member outside of it. -/
theorem append_inj_of_class {p : α → Prop} (hxs : ∀ x ∈ xs, p x) (hys : ∀ y ∈ ys, p y)
    (hs : ∀ c ∈ s.head?, ¬ p c) (ht : ∀ c ∈ t.head?, ¬ p c) (h : xs ++ s = ys ++ t) :
    xs = ys ∧ s = t := by
  induction xs generalizing ys with
  | nil =>
    cases ys with
    | nil => exact ⟨rfl, h⟩
    | cons y ys =>
      rw [List.nil_append] at h
      subst h
      exact absurd (hys y List.mem_cons_self) (hs y rfl)
  | cons x xs ih =>
    obtain ⟨hx, hxs⟩ := List.forall_mem_cons.mp hxs
    cases ys with
    | nil =>
      rw [List.nil_append] at h
      subst h
      exact absurd hx (ht x rfl)
    | cons y ys =>
      obtain ⟨rfl, hrest⟩ := List.cons.inj h
      obtain ⟨rfl, rfl⟩ := ih hxs (List.forall_mem_cons.mp hys).2 hrest
      exact ⟨rfl, rfl⟩

theorem append_inj_of_separator {sep : α} (hxs : sep ∉ xs) (hys : sep ∉ ys)
    (h : xs ++ sep :: s = ys ++ sep :: t) : xs = ys ∧ s = t := by
  have hclass : ∀ {zs : List α}, sep ∉ zs → ∀ z ∈ zs, z ≠ sep := by
    rintro zs hzs z hz rfl
    exact hzs hz
  obtain ⟨rfl, hrest⟩ := append_inj_of_class (hclass hxs) (hclass hys) (by simp) (by simp) h
  exact ⟨rfl, (List.cons.inj hrest).2⟩

/-- Texts without the first member of the separator can be read back from their list. -/
theorem intercalate_inj {sep : α} {more : List α} {texts texts' : List (List α)} (hne : texts ≠ [])
    (hne' : texts' ≠ []) (hsep : ∀ x ∈ texts, sep ∉ x) (hsep' : ∀ x ∈ texts', sep ∉ x)
    (h : (sep :: more).intercalate texts = (sep :: more).intercalate texts') : texts = texts' := by
  -- a single text has no separator, and two texts have one between them
  have hsingle : ∀ {x y z : List α} {rest : List (List α)}, sep ∉ x →
      x ≠ (sep :: more).intercalate (y :: z :: rest) := by
    rintro x y z rest hx rfl
    simp at hx
  induction texts generalizing texts' with
  | nil => exact absurd rfl hne
  | cons x texts ih =>
    obtain ⟨hx, hrest⟩ := List.forall_mem_cons.mp hsep
    cases texts' with
    | nil => exact absurd rfl hne'
    | cons y texts' =>
      obtain ⟨hy, hrest'⟩ := List.forall_mem_cons.mp hsep'
      cases texts with
      | nil =>
        rw [List.intercalate_singleton] at h
        cases texts' with
        | nil => rw [h, List.intercalate_singleton]
        | cons z texts' => exact absurd h (hsingle hx)
      | cons w texts =>
        cases texts' with
        | nil =>
          rw [List.intercalate_singleton] at h
          exact absurd h.symm (hsingle hy)
        | cons z texts' =>
          simp only [List.intercalate_cons_cons, List.append_assoc, List.cons_append] at h
          obtain ⟨rfl, htail⟩ := append_inj_of_separator hx hy h
          have htexts : w :: texts = z :: texts' :=
            ih (by simp) (by simp) hrest hrest' (List.append_cancel_left htail)
          rw [htexts]

end

theorem isDigit_of_mem_repr {n : Nat} {c : Char} (h : c ∈ n.repr.toList) : c.isDigit = true := by
  rw [Nat.toList_repr] at h
  exact Nat.isDigit_of_mem_toDigits (by decide) (by decide) h

theorem repr_inj {m n : Nat} (h : m.repr = n.repr) : m = n := by
  have hdigits : Nat.toDigits 10 m = Nat.toDigits 10 n := by
    rw [← Nat.toList_repr, ← Nat.toList_repr, h]
  calc
    m = Nat.ofDigitChars 10 (Nat.toDigits 10 m) 0 := Nat.ofDigitChars_ten_toDigits.symm
    _ = Nat.ofDigitChars 10 (Nat.toDigits 10 n) 0 := by rw [hdigits]
    _ = n := Nat.ofDigitChars_ten_toDigits

theorem repr_append_inj {m n : Nat} {s t : List Char} (hs : ∀ c ∈ s.head?, c.isDigit = false)
    (ht : ∀ c ∈ t.head?, c.isDigit = false) (h : m.repr.toList ++ s = n.repr.toList ++ t) :
    m = n ∧ s = t := by
  have hclass : ∀ k : Nat, ∀ c ∈ k.repr.toList, c.isDigit = true := by
    intro k c hc
    exact isDigit_of_mem_repr hc
  obtain ⟨htext, hrest⟩ := append_inj_of_class (hclass m) (hclass n) (by simpa using hs)
    (by simpa using ht) h
  exact ⟨repr_inj (String.toList_inj.mp htext), hrest⟩

theorem mem_toString_int {n : Int} {c : Char} (h : c ∈ (toString n).toList) :
    c = '-' ∨ c.isDigit = true := by
  cases n with
  | ofNat n => exact .inr (isDigit_of_mem_repr h)
  | negSucc n =>
    change c ∈ ("-" ++ (n + 1).repr).toList at h
    rw [String.toList_append] at h
    rcases List.mem_append.mp h with h | h
    · exact .inl (by simpa using h)
    · exact .inr (isDigit_of_mem_repr h)

theorem toString_int_inj {m n : Int} (h : toString m = toString n) : m = n := by
  have hminus : ∀ a b : Nat, a.repr ≠ "-" ++ b.repr := by
    intro a b heq
    have hmem : '-' ∈ a.repr.toList := by simp [heq]
    exact absurd (isDigit_of_mem_repr hmem) (by decide)
  cases m with
  | ofNat m =>
    cases n with
    | ofNat n => exact congrArg Int.ofNat (repr_inj h)
    | negSucc n => exact absurd h (hminus m (n + 1))
  | negSucc m =>
    cases n with
    | ofNat n => exact absurd h.symm (hminus n (m + 1))
    | negSucc n =>
      have hsucc := repr_inj ((String.append_right_inj "-").mp h)
      exact congrArg Int.negSucc (by omega)

/-- A number ends before the blank behind it. -/
theorem toString_append_inj {m n : Int} {s t : String} (hs : s.toList.head? = some ' ')
    (ht : t.toList.head? = some ' ') (h : toString m ++ s = toString n ++ t) : m = n ∧ s = t := by
  have hclass : ∀ k : Int, ∀ c ∈ (toString k).toList, c ≠ ' ' := by
    rintro k c hc rfl
    rcases mem_toString_int hc with h | h
    · exact absurd h (by decide)
    · exact absurd h (by decide)
  have hlists := congrArg String.toList h
  rw [String.toList_append, String.toList_append] at hlists
  obtain ⟨htext, hrest⟩ := append_inj_of_class (hclass m) (hclass n) (by simp [hs]) (by simp [ht])
    hlists
  exact ⟨toString_int_inj (String.toList_inj.mp htext), String.toList_inj.mp hrest⟩

end ImportGroups
