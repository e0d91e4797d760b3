import ImportGroups.Proofs.Reading.Single
import Mathlib.Tactic.SplitIfs

/-!
Straight readings as a computation.

A version that is alone can be run on its column, without the others that it might have had to compete
with. If it comes to the end of the source, the reading is straight.
-/

namespace ImportGroups.Source

namespace Column

/-- The top of a column with so many parts, and what lies below it. -/
def split? : Column → Nat → Option (Column × Column)
  | [], _ => none
  | x :: k, n =>
    if !x.2.extra && n == 1 then some ([x], k)
    else (split? k (if x.2.extra then n else n - 1)).map fun (top, below) => (x :: top, below)

/-- Forms phrases before the symbol as long as there are some. -/
def form? (start : Mark) (t : Symbol) : Nat → Column → Option Column
  | 0, k => some k
  | fuel + 1, k =>
    match Automaton.actions k.state t with
    | [.reduce rule] =>
      (k.split? rule.parts).bind fun (top, below) => form? start t fuel (reduce start rule top below)
    | _ => some k

def take? (start : Mark) (token : Tree) (k : Column) : Option Column :=
  token.symbol?.bind fun t =>
    (k.form? start t 20).bind fun k₁ =>
      match Automaton.actions k₁.state t with
      | [.shift target] => some ((target, token) :: k₁)
      | _ => none

def next (start : Mark) (k : Column) : Tree := (readToken k.state (k.mark start)).1

def round? (start : Mark) (k : Column) : Option Column :=
  let here := (k.mark start).offset
  let token := k.next start
  match token.symbol?.map (Automaton.actions k.state) with
  | some [.pass] =>
    if here < token.stop.offset then some ((k.state, { token with extra := true }) :: k) else none
  | _ =>
    (k.take? start token).bind fun k₁ =>
      if here < token.stop.offset then some k₁
      else if 0 < here && token.stop.offset == here && !token.fits k₁.state then
        (k₁.take? start (k₁.next start)).filter fun k₂ => here < (k₂.mark start).offset
      else none

/-- Runs the version to the end of the source. -/
def run? (start : Mark) (size : Nat) : Nat → Column → Option Tree
  | 0, _ => none
  | fuel + 1, k =>
    let token := k.next start
    if token.symbol? = some .endOfFile then
      (k.form? start .endOfFile 20).bind fun k' =>
        if k'.state = Automaton.final ∧ (k.mark start).offset ≤ size then
          Contest.wholeTree token.stop (k'.trees ++ [token])
        else none
    else (k.round? start).bind (run? start size fuel)

variable {start : Mark} {k k' : Column}

theorem split?_sound {n : Nat} {top below : Column} (h : k.split? n = some (top, below)) :
    k = top ++ below ∧ Top n top := by
  induction k generalizing n top with
  | nil => cases h
  | cons x k ih =>
    rw [split?] at h
    by_cases hlast : (!x.2.extra && n == 1) = true
    · rw [if_pos hlast] at h
      obtain ⟨hx, rfl⟩ : x.2.extra = false ∧ n = 1 := by simpa using hlast
      obtain ⟨rfl, rfl⟩ := Prod.mk.inj (Option.some.inj h)
      exact ⟨rfl, .last hx⟩
    · rw [if_neg hlast] at h
      obtain ⟨⟨top', _⟩, hsplit, heq⟩ := Option.map_eq_some_iff.mp h
      obtain ⟨rfl, rfl⟩ := Prod.mk.inj heq
      obtain ⟨rfl, htop⟩ := ih hsplit
      refine ⟨rfl, ?_⟩
      cases hx : x.2.extra with
      | true =>
        rw [hx, if_pos rfl] at htop
        exact .extra hx htop
      | false =>
        rw [hx, if_neg (by simp)] at htop
        have hpos := htop.pos
        obtain ⟨m, rfl⟩ : ∃ m, n = m + 1 := ⟨n - 1, by omega⟩
        exact .part hx htop

theorem form?_sound {t : Symbol} {fuel : Nat} (h : k.form? start t fuel = some k') :
    ∃ n ≤ fuel, Forms start t n k k' := by
  induction fuel generalizing k with
  | zero =>
    obtain rfl := Option.some.inj h
    exact ⟨0, Nat.le_refl 0, .refl k⟩
  | succ fuel ih =>
    rw [form?] at h
    split at h
    · rename_i rule ha
      obtain ⟨⟨top, below⟩, hsplit, hform⟩ := Option.bind_eq_some_iff.mp h
      obtain ⟨rfl, htop⟩ := split?_sound hsplit
      obtain ⟨n, hn, hforms⟩ := ih hform
      exact ⟨n + 1, Nat.succ_le_succ hn, .step ha htop hforms⟩
    · obtain rfl := Option.some.inj h
      exact ⟨0, Nat.zero_le _, .refl k⟩

theorem take?_sound (h : k.take? start (k.next start) = some k') :
    ∃ n ≤ 20, Takes start (k.next start) n k k' := by
  obtain ⟨t, ht, h⟩ := Option.bind_eq_some_iff.mp h
  obtain ⟨k₁, hform, h⟩ := Option.bind_eq_some_iff.mp h
  obtain ⟨n, hn, hforms⟩ := form?_sound hform
  split at h
  · rename_i target ha
    obtain rfl := Option.some.inj h
    exact ⟨n, hn, ⟨_, rfl⟩, t, target, k₁, ht, hforms, ha, rfl⟩
  · cases h

theorem round?_sound (h : k.round? start = some k') : Round start k k' := by
  unfold round? at h
  dsimp only at h
  split at h
  · rename_i hpass
    obtain ⟨t, ht, ha⟩ := Option.map_eq_some_iff.mp hpass
    split_ifs at h with hlt
    obtain rfl := Option.some.inj h
    exact .pass rfl ht ha hlt
  · obtain ⟨k₁, htake, h⟩ := Option.bind_eq_some_iff.mp h
    obtain ⟨n, hn, htakes⟩ := take?_sound htake
    split_ifs at h with hlt hempty
    · obtain rfl := Option.some.inj h
      exact .one htakes hn hlt
    · obtain ⟨htake', hlt'⟩ := Option.filter_eq_some_iff.mp h
      obtain ⟨n', hn', htakes'⟩ := take?_sound htake'
      obtain ⟨t, -, -, ht, -⟩ := htakes.takes
      simp only [Tree.fits, ht, Option.any_some, Bool.and_eq_true, decide_eq_true_eq, beq_iff_eq,
        Bool.not_eq_true'] at hempty
      refine .two hempty.1.1 htakes hn hempty.1.2 ht hempty.2 htakes' hn' ?_
      rw [← htakes'.mark]
      simpa using hlt'

theorem run?_sound {size fuel : Nat} {tree : Tree} (h : k.run? start size fuel = some tree) :
    ∃ m n k₁ k₂ token, Reads start m k k₁ ∧ Ends start token n k₁ k₂ ∧ n ≤ 20 ∧
      (k₁.mark start).offset ≤ size ∧
      Contest.wholeTree token.stop (k₂.trees ++ [token]) = some tree := by
  induction fuel generalizing k with
  | zero => cases h
  | succ fuel ih =>
    rw [run?] at h
    split_ifs at h with hend
    · obtain ⟨k', hform, h⟩ := Option.bind_eq_some_iff.mp h
      obtain ⟨n, hn, hforms⟩ := form?_sound hform
      split_ifs at h with hfinal
      exact ⟨0, n, k, k', _, .refl k, ⟨⟨_, rfl⟩, hend, hforms, hfinal.1⟩, hn, hfinal.2, h⟩
    · obtain ⟨k', hround, h⟩ := Option.bind_eq_some_iff.mp h
      obtain ⟨m, n, k₁, k₂, token, hreads, hrest⟩ := ih h
      exact ⟨m + 1, n, k₁, k₂, token, .head (round?_sound hround) hreads, hrest⟩

end Column

/-- Whether one version reads the source from its beginning to its end, as a file. -/
def readsAlone (source : Text.Bytes) : Bool :=
  (Column.run? (.ofSource source) source.length (source.length + 1) []).any
    fun tree => tree.label == .phrase .sourceFile

theorem exists_straight {source : Text.Bytes} (h : readsAlone source = true) :
    ∃ tree, Straight source tree := by
  obtain ⟨tree, hrun, hlabel⟩ := (Option.any_eq_true _ _).mp h
  obtain ⟨_, _, _, _, _, hreads, hends, hn, hbound, htree⟩ := Column.run?_sound hrun
  exact ⟨tree, .intro hreads hends hn hbound htree (by simpa using hlabel)⟩

end ImportGroups.Source
