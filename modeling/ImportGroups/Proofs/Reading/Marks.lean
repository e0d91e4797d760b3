import ImportGroups.Source.Mark

/-!
Moving on in a source.
-/

namespace ImportGroups.Source.Mark

open Text (Bytes)

theorem rest_step (m : Mark) : m.step.rest = m.rest.drop 1 := by
  unfold step
  cases h : m.rest with
  | nil => simp [h]
  | cons b bs => rfl

@[simp] theorem rest_advance (n : Nat) (m : Mark) : (m.advance n).rest = m.rest.drop n := by
  induction n generalizing m with
  | zero => rfl
  | succ n ih => rw [advance, ih, rest_step, List.drop_drop, Nat.add_comm]

theorem offset_step {m : Mark} (h : m.rest ≠ []) : m.step.offset = m.offset + 1 := by
  unfold step
  cases hm : m.rest with
  | nil => exact absurd hm h
  | cons b bs => rfl

theorem offset_advance {n : Nat} {m : Mark} (h : n ≤ m.rest.length) :
    (m.advance n).offset = m.offset + n := by
  induction n generalizing m with
  | zero => rfl
  | succ n ih =>
    have hne : m.rest ≠ [] := List.ne_nil_of_length_pos (by omega)
    rw [advance, ih (by rw [rest_step, List.length_drop]; omega), offset_step hne]
    omega

theorem advance_advance (a b : Nat) (m : Mark) : (m.advance a).advance b = m.advance (a + b) := by
  induction a generalizing m with
  | zero => rw [Nat.zero_add]; rfl
  | succ a ih => rw [Nat.succ_add, advance, advance, ih]

def past (m : Mark) (text : Bytes) : Mark := m.advance text.length

theorem rest_past {m : Mark} {text more : Bytes} (h : m.rest = text ++ more) :
    (m.past text).rest = more := by
  rw [past, rest_advance, h, List.drop_left]

theorem offset_past {m : Mark} {text more : Bytes} (h : m.rest = text ++ more) :
    (m.past text).offset = m.offset + text.length :=
  offset_advance (by rw [h, List.length_append]; omega)

theorem past_past (m : Mark) (a b : Bytes) : (m.past a).past b = m.past (a ++ b) := by
  rw [past, past, past, advance_advance, List.length_append]

@[simp] theorem past_nil (m : Mark) : m.past [] = m := rfl

theorem toSpot_past {m m' : Mark} {text more more' : Bytes} (hspot : m.toSpot = m'.toSpot)
    (h : m.rest = text ++ more) (h' : m'.rest = text ++ more') :
    (m.past text).toSpot = (m'.past text).toSpot := by
  induction text generalizing m m' with
  | nil => exact hspot
  | cons b text ih =>
    have hstep : m.step.toSpot = m'.step.toSpot := by
      simp [step, h, h', hspot]
    exact ih hstep (by rw [rest_step, h]; rfl) (by rw [rest_step, h']; rfl)

theorem take_past {m : Mark} {text more : Bytes} (h : m.rest = text ++ more) :
    m.rest.take ((m.past text).offset - m.offset) = text := by
  rw [offset_past h, h, Nat.add_sub_cancel_left, List.take_left]

end ImportGroups.Source.Mark
