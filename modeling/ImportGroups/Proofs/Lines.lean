import ImportGroups.Text.Blank
import ImportGroups.Text.Lines
import Mathlib.Data.List.TakeWhile
import Mathlib.Tactic.SplitIfs

/-!
Lines of a text and their white space.
-/

namespace ImportGroups.Text

theorem lines_cons_of_isLineEnd {c : Char} (h : isLineEnd c = true) (hc : c ≠ '\r')
    (cs : List Char) : lines (c :: cs) = [] :: lines cs := by
  rw [lines.eq_def]
  split
  · simp_all
  · simp_all
  · rename_i heq
    cases heq
    rw [if_pos h]

theorem lines_cons_of_not_isLineEnd {c : Char} (h : isLineEnd c = false) (cs : List Char) :
    lines (c :: cs) = (c :: (lines cs).headD []) :: (lines cs).tail := by
  rw [lines.eq_def]
  split
  · simp_all
  · rename_i heq
    cases heq
    simp [isLineEnd] at h
  · rename_i heq
    cases heq
    rw [if_neg (by simp [h])]
    cases lines cs <;> rfl

theorem lines_cr {cs : List Char} (h : cs.head? ≠ some '\n') : lines ('\r' :: cs) = [] :: lines cs := by
  rw [lines.eq_def]
  split
  · simp_all
  · simp_all
  · rename_i heq
    cases heq
    rfl

theorem lines_lf (cs : List Char) : lines ('\n' :: cs) = [] :: lines cs :=
  lines_cons_of_isLineEnd rfl (by decide) cs

theorem lines_crlf (cs : List Char) : lines ('\r' :: '\n' :: cs) = [] :: lines cs := by
  rw [lines]

theorem lines_unifyNewlines (cs : List Char) : lines (unifyNewlines cs) = lines cs := by
  fun_induction unifyNewlines cs with
  | case1 => rfl
  | case2 cs ih => rw [lines_lf, lines_crlf, ih]
  | case3 cs hcs ih =>
    have hhead : cs.head? ≠ some '\n' := by
      intro h
      obtain ⟨rest, rfl⟩ := List.head?_eq_some_iff.mp h
      exact hcs rest rfl
    rw [lines_lf, lines_cr hhead, ih]
  | case4 c cs _ hc ih =>
    have hcr : c ≠ '\r' := hc
    by_cases hend : isLineEnd c = true
    · rw [lines_cons_of_isLineEnd hend hcr, lines_cons_of_isLineEnd hend hcr, ih]
    · rw [lines_cons_of_not_isLineEnd (by simpa using hend),
        lines_cons_of_not_isLineEnd (by simpa using hend), ih]

theorem lines_ne_nil {cs : List Char} (h : cs ≠ []) : lines cs ≠ [] := by
  rw [lines.eq_def]
  split
  · exact absurd rfl h
  · simp
  · split_ifs
    · simp
    · split <;> simp

/-- A text in four cases, by its first character: a carriage return with a line feed behind it or
without, another line end, or a character of the first line. -/
theorem linesInduction {motive : List Char → Prop} (nil : motive [])
    (crlf : ∀ cs, motive cs → motive ('\r' :: '\n' :: cs))
    (cr : ∀ cs, cs.head? ≠ some '\n' → motive cs → motive ('\r' :: cs))
    (lineEnd : ∀ c cs, isLineEnd c = true → c ≠ '\r' → motive cs → motive (c :: cs))
    (char : ∀ c cs, isLineEnd c = false → motive cs → motive (c :: cs)) (cs : List Char) :
    motive cs := by
  fun_induction unifyNewlines cs with
  | case1 => exact nil
  | case2 cs ih => exact crlf cs ih
  | case3 cs hcs ih =>
    refine cr cs ?_ ih
    intro h
    obtain ⟨rest, rfl⟩ := List.head?_eq_some_iff.mp h
    exact hcs rest rfl
  | case4 c cs _ hc ih =>
    by_cases hend : isLineEnd c = true
    · exact lineEnd c cs hend hc ih
    · exact char c cs (by simpa using hend) ih

/-- Behind a line feed the lines are those of a text of its own. -/
theorem lines_append_lf (cs ds : List Char) :
    lines (cs ++ '\n' :: ds) = lines (cs ++ ['\n']) ++ lines ds := by
  induction cs using linesInduction with
  | nil => rw [List.nil_append, List.nil_append, lines_lf, lines_lf]; rfl
  | crlf cs ih =>
    simp only [List.cons_append]
    rw [lines_crlf, lines_crlf, ih, List.cons_append]
  | cr cs hcs ih =>
    cases cs with
    | nil =>
      -- the line feed belongs to the carriage return in front of it
      change lines ('\r' :: '\n' :: ds) = lines ['\r', '\n'] ++ lines ds
      rw [lines_crlf, lines_crlf]
      rfl
    | cons c rest =>
      simp only [List.cons_append] at ih ⊢
      rw [lines_cr (by simpa using hcs), lines_cr (by simpa using hcs), ih, List.cons_append]
  | lineEnd c cs hend hcr ih =>
    simp only [List.cons_append]
    rw [lines_cons_of_isLineEnd hend hcr, lines_cons_of_isLineEnd hend hcr, ih, List.cons_append]
  | char c cs hend ih =>
    simp only [List.cons_append]
    rw [lines_cons_of_not_isLineEnd hend, lines_cons_of_not_isLineEnd hend, ih]
    have hne : lines (cs ++ ['\n']) ≠ [] := lines_ne_nil (by simp)
    cases hlines : lines (cs ++ ['\n']) with
    | nil => exact absurd hlines hne
    | cons l ls => simp

/-- A line feed at the end makes no line, or an empty one. -/
theorem lines_concat_lf (cs : List Char) :
    lines (cs ++ ['\n']) = lines cs ∨ lines (cs ++ ['\n']) = lines cs ++ [[]] := by
  induction cs using linesInduction with
  | nil => exact .inr rfl
  | crlf cs ih =>
    simp only [List.cons_append]
    rw [lines_crlf, lines_crlf]
    exact ih.imp (congrArg _) (congrArg _)
  | cr cs hcs ih =>
    cases cs with
    | nil =>
      -- the carriage return has ended this line already
      exact .inl rfl
    | cons c rest =>
      simp only [List.cons_append] at ih ⊢
      rw [lines_cr (by simpa using hcs), lines_cr (by simpa using hcs)]
      exact ih.imp (congrArg _) (congrArg _)
  | lineEnd c cs hend hcr ih =>
    simp only [List.cons_append]
    rw [lines_cons_of_isLineEnd hend hcr, lines_cons_of_isLineEnd hend hcr]
    exact ih.imp (congrArg _) (congrArg _)
  | char c cs hend ih =>
    simp only [List.cons_append]
    rw [lines_cons_of_not_isLineEnd hend, lines_cons_of_not_isLineEnd hend]
    cases cs with
    | nil => exact .inl rfl
    | cons d rest =>
      have hne : lines (d :: rest) ≠ [] := lines_ne_nil (by simp)
      rcases ih with ih | ih
      · exact .inl (by rw [ih])
      · right
        rw [ih]
        cases hlines : lines (d :: rest) with
        | nil => exact absurd hlines hne
        | cons l ls => simp

theorem mem_lines {cs l : List Char} (hl : l ∈ lines cs) {c : Char} (hc : c ∈ l) :
    c ∈ cs ∧ isLineEnd c = false := by
  induction cs using linesInduction generalizing l c with
  | nil => simp [lines] at hl
  | crlf cs ih =>
    rw [lines_crlf] at hl
    rcases List.mem_cons.mp hl with rfl | hl
    · simp at hc
    · exact (ih hl hc).imp_left fun hcs => by simp [hcs]
  | cr cs hcs ih =>
    rw [lines_cr hcs] at hl
    rcases List.mem_cons.mp hl with rfl | hl
    · simp at hc
    · exact (ih hl hc).imp_left (List.mem_cons_of_mem _)
  | lineEnd d cs hend hcr ih =>
    rw [lines_cons_of_isLineEnd hend hcr] at hl
    rcases List.mem_cons.mp hl with rfl | hl
    · simp at hc
    · exact (ih hl hc).imp_left (List.mem_cons_of_mem _)
  | char d cs hend ih =>
    rw [lines_cons_of_not_isLineEnd hend] at hl
    rcases List.mem_cons.mp hl with rfl | hl
    · rcases List.mem_cons.mp hc with rfl | hc
      · exact ⟨List.mem_cons_self, hend⟩
      · cases hlines : lines cs with
        | nil => simp [hlines] at hc
        | cons l ls =>
          have hl : l ∈ lines cs := by simp [hlines]
          exact (ih hl (by simpa [hlines] using hc)).imp_left (List.mem_cons_of_mem _)
    · exact (ih (List.mem_of_mem_tail hl) hc).imp_left (List.mem_cons_of_mem _)

theorem lines_append_of_no_lineEnd {cs : List Char} (hne : cs ≠ [])
    (h : ∀ c ∈ cs, isLineEnd c = false) (ds : List Char) :
    lines (cs ++ ds) = (cs ++ (lines ds).headD []) :: (lines ds).tail := by
  induction cs with
  | nil => exact absurd rfl hne
  | cons c cs ih =>
    obtain ⟨hc, hcs⟩ := List.forall_mem_cons.mp h
    rw [List.cons_append, lines_cons_of_not_isLineEnd hc]
    cases cs with
    | nil => simp
    | cons d rest =>
      rw [ih (by simp) hcs]
      rfl

theorem lines_flatMap_lf {ls : List (List Char)} (h : ∀ l ∈ ls, ∀ c ∈ l, isLineEnd c = false) :
    lines (ls.flatMap (· ++ ['\n'])) = ls := by
  induction ls with
  | nil => rfl
  | cons l ls ih =>
    obtain ⟨hl, hls⟩ := List.forall_mem_cons.mp h
    have hone : lines (l ++ ['\n']) = [l] := by
      by_cases hne : l = []
      · subst hne
        rfl
      · rw [lines_append_of_no_lineEnd hne hl]
        simp [lines_lf, lines]
    rw [List.flatMap_cons, List.append_assoc, List.singleton_append, lines_append_lf, hone, ih hls,
      List.singleton_append]

section

variable {α : Type} {p : α → Bool} {xs ys : List α}

theorem dropEndWhile_append_of_all (xs : List α) (h : ∀ y ∈ ys, p y = true) :
    dropEndWhile p (xs ++ ys) = dropEndWhile p xs := by
  rw [dropEndWhile, dropEndWhile, List.reverse_append, List.dropWhile_append_of_pos]
  intro y hy
  exact h y (List.mem_reverse.mp hy)

theorem dropWhile_eq_self (h : ∀ x ∈ xs.head?, p x = false) : xs.dropWhile p = xs := by
  cases xs with
  | nil => rfl
  | cons x xs => simp [h x rfl]

theorem dropEndWhile_eq_self (h : ∀ x ∈ xs.getLast?, p x = false) : dropEndWhile p xs = xs := by
  rw [dropEndWhile, dropWhile_eq_self, List.reverse_reverse]
  rwa [List.head?_reverse]

theorem trimWhile_of_all (h : ∀ x ∈ xs, p x = true) : trimWhile p xs = [] := by
  rw [trimWhile, List.dropWhile_eq_nil_iff.mpr h]
  rfl

theorem dropEndWhile_isPrefix (p : α → Bool) (xs : List α) : dropEndWhile p xs <+: xs := by
  rw [dropEndWhile, ← List.reverse_suffix, List.reverse_reverse]
  exact List.dropWhile_suffix p

theorem exists_append_dropEndWhile (p : α → Bool) (xs : List α) :
    ∃ dropped, xs = dropEndWhile p xs ++ dropped ∧ ∀ x ∈ dropped, p x = true := by
  refine ⟨(xs.reverse.takeWhile p).reverse, ?_, ?_⟩
  · rw [dropEndWhile, ← List.reverse_append, List.takeWhile_append_dropWhile, List.reverse_reverse]
  · intro x hx
    exact List.mem_takeWhile_imp (List.mem_reverse.mp hx)

theorem getLast?_dropEndWhile {x : α} (h : (dropEndWhile p xs).getLast? = some x) : p x = false := by
  rw [dropEndWhile, List.getLast?_reverse] at h
  have hnot := List.head?_dropWhile_not p xs.reverse
  rw [h] at hnot
  simpa using hnot

theorem head?_trimWhile {x : α} (h : (trimWhile p xs).head? = some x) : p x = false := by
  have hhead : (xs.dropWhile p).head? = some x := by
    obtain ⟨rest, hrest⟩ := dropEndWhile_isPrefix p (xs.dropWhile p)
    rw [← hrest, List.head?_append, ← trimWhile, h]
    rfl
  have hnot := List.head?_dropWhile_not p xs
  rw [hhead] at hnot
  simpa using hnot

/-- What is trimmed off stands around a text whose own ends stay. -/
theorem trimWhile_between (before xs after : List α) (hbefore : ∀ x ∈ before, p x = true)
    (hafter : ∀ x ∈ after, p x = true) (hhead : ∀ x ∈ xs.head?, p x = false)
    (hlast : ∀ x ∈ xs.getLast?, p x = false) : trimWhile p (before ++ xs ++ after) = xs := by
  cases xs with
  | nil =>
    rw [List.append_nil]
    apply trimWhile_of_all
    intro x hx
    rcases List.mem_append.mp hx with hx | hx
    · exact hbefore x hx
    · exact hafter x hx
  | cons x xs =>
    rw [trimWhile, List.append_assoc, List.dropWhile_append_of_pos hbefore,
      dropWhile_eq_self (by simpa using hhead), dropEndWhile_append_of_all _ hafter,
      dropEndWhile_eq_self hlast]

end

end ImportGroups.Text
