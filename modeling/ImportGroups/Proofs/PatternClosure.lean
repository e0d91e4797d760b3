import ImportGroups.Pattern.Basic
import ImportGroups.Proofs.Outcome
import ImportGroups.Proofs.Split

/-!
What is below a matched directory is matched.

A pattern that has matched a directory's path, slash included, matches whatever the path goes on
with. The last atom of a pattern asks for the end of a name. The slash at the end of the directory's
path is such an end, unless the atoms before it have used it up; but in front of the last atom there
are only atoms for characters of one name, and no class that could contain the slash.
-/

namespace ImportGroups

namespace Pattern

/-- The path of a directory seen from above it: empty, or with a slash at its end. -/
def IsDirPath (path : List Char) : Prop := ∀ c, path.getLast? = some c → c = '/'

theorem IsDirPath.tail {c : Char} {cs : List Char} (h : IsDirPath (c :: cs)) : IsDirPath cs := by
  intro d hd
  exact h d (by simp [List.getLast?_cons, hd])

theorem IsDirPath.tail_ne_nil {c : Char} {cs : List Char} (h : IsDirPath (c :: cs))
    (hc : c ≠ '/') : cs ≠ [] := by
  rintro rfl
  exact hc (h c rfl)

/-- A condition that holds of all that is below a directory if it holds of the directory. -/
def Closed (k : List Char → Bool) : Prop :=
  ∀ path more, IsDirPath path → k path = true → k (path ++ more) = true

theorem afterRun_of_here (p : Char → Bool) {k : List Char → Bool} {cs : List Char}
    (h : k cs = true) : afterRun p k cs = true := by
  cases cs <;> simp [afterRun, h]

theorem Closed.afterRun {p : Char → Bool} {k : List Char → Bool} (hk : Closed k) :
    Closed (afterRun p k) := by
  intro path more hdir h
  induction path with
  | nil => exact afterRun_of_here p (hk [] more hdir h)
  | cons c cs ih =>
    simp only [Pattern.afterRun, Bool.or_eq_true, Bool.and_eq_true] at h
    simp only [List.cons_append, Pattern.afterRun, Bool.or_eq_true, Bool.and_eq_true]
    rcases h with h | ⟨hc, h⟩
    · exact .inl (hk _ more hdir h)
    · exact .inr ⟨hc, ih hdir.tail h⟩

section

variable {as : List Atom} (h : Closed (matchAtoms as))

include h

theorem closed_char (c : Char) : Closed (matchAtoms (.char c :: as)) := by
  intro path more hdir hm
  cases path with
  | nil => simp [matchAtoms] at hm
  | cons d ds =>
    simp only [matchAtoms, Bool.and_eq_true] at hm
    simp only [List.cons_append, matchAtoms, hm.1, Bool.true_and]
    exact h ds more hdir.tail hm.2

theorem closed_notSlash : Closed (matchAtoms (.notSlash :: as)) := by
  intro path more hdir hm
  cases path with
  | nil => simp [matchAtoms] at hm
  | cons d ds =>
    simp only [matchAtoms, Bool.and_eq_true] at hm
    simp only [List.cons_append, matchAtoms, hm.1, Bool.true_and]
    exact h ds more hdir.tail hm.2

theorem closed_run : Closed (matchAtoms (.run :: as)) := by
  intro path more hdir hm
  rw [matchAtoms] at hm ⊢
  exact h.afterRun path more hdir hm

theorem closed_leadingDirs : Closed (matchAtoms (.leadingDirs :: as)) := by
  have hslash : Closed fun es => es.head? == some '/' && matchAtoms as es.tail := by
    intro path more hdir hm
    cases path with
    | nil => simp at hm
    | cons d ds =>
      simp only [List.head?_cons, List.tail_cons, Bool.and_eq_true] at hm
      simp only [List.cons_append, List.head?_cons, List.tail_cons, hm.1, Bool.true_and]
      exact h ds more hdir.tail hm.2
  intro path more hdir hm
  simp only [matchAtoms, Bool.or_eq_true] at hm ⊢
  rcases hm with hm | hm
  · exact .inl (h path more hdir hm)
  · right
    cases path with
    | nil => simp at hm
    | cons d ds =>
      simp only [Bool.and_eq_true] at hm
      simp only [List.cons_append, hm.1, Bool.true_and]
      exact hslash.afterRun ds more hdir.tail hm.2

theorem closed_innerDirs : Closed (matchAtoms (.innerDirs :: as)) := by
  intro path more hdir hm
  simp only [matchAtoms, Bool.or_eq_true] at hm ⊢
  rcases hm with hm | hm
  · exact .inl (h path more hdir hm)
  · right
    split at hm
    · rename_i d ds
      simp only [Bool.and_eq_true] at hm
      simp only [List.cons_append, hm.1, Bool.true_and]
      exact h.afterRun ds more hdir.tail.tail hm.2
    · simp at hm

end

inductive Atom.InName : Atom → Prop where
  | char {c : Char} : c ≠ '/' → InName (.char c)
  | notSlash : InName .notSlash
  | run : InName .run

theorem charAtoms_inName {segment : List Char} {as : List Atom} (hslash : '/' ∉ segment)
    (hclass : '[' ∉ segment) (h : charAtoms segment = .ok as) : ∀ a ∈ as, a.InName := by
  fun_induction charAtoms segment generalizing as with
  | case1 =>
    cases h
    simp
  | case2 => cases h
  | case3 d ds ih =>
    obtain ⟨bs, hbs, rfl⟩ := map_eq_ok_iff.mp h
    simp only [List.mem_cons, not_or] at hslash hclass
    exact List.forall_mem_cons.mpr ⟨.char (Ne.symm hslash.2.1), ih hslash.2.2 hclass.2.2 hbs⟩
  | case4 cs ih =>
    obtain ⟨bs, hbs, rfl⟩ := map_eq_ok_iff.mp h
    simp only [List.mem_cons, not_or] at hslash hclass
    exact List.forall_mem_cons.mpr ⟨.run, ih hslash.2 hclass.2 hbs⟩
  | case5 cs ih =>
    obtain ⟨bs, hbs, rfl⟩ := map_eq_ok_iff.mp h
    simp only [List.mem_cons, not_or] at hslash hclass
    exact List.forall_mem_cons.mpr ⟨.notSlash, ih hslash.2 hclass.2 hbs⟩
  | case6 => simp at hclass
  | case7 => simp at hclass
  | case8 c cs _ _ _ _ ih =>
    obtain ⟨bs, hbs, rfl⟩ := map_eq_ok_iff.mp h
    simp only [List.mem_cons, not_or] at hslash hclass
    exact List.forall_mem_cons.mpr ⟨.char (Ne.symm hslash.1), ih hslash.2 hclass.2 hbs⟩

theorem charAtoms_ne_nil {segment : List Char} {as : List Atom} (hne : segment ≠ [])
    (h : charAtoms segment = .ok as) : as ≠ [] := by
  have hcons : ∀ {x : Except SegmentFault (List Atom)} {a : Atom},
      x.map (a :: ·) = .ok as → as ≠ [] := by
    intro x a hx
    obtain ⟨bs, -, rfl⟩ := map_eq_ok_iff.mp hx
    simp
  fun_induction charAtoms segment with
  | case1 => exact absurd rfl hne
  | case2 => cases h
  | case6 => cases h
  | case3 | case4 | case5 | case7 | case8 => exact hcons h

/-- The atoms of a segment without a class stay within a name, and there are some if the segment is
not empty. -/
theorem segmentAtoms_inName {segment : List Char} {as : List Atom} (hslash : '/' ∉ segment)
    (hclass : '[' ∉ segment) (h : segmentAtoms segment = .ok as) :
    (∀ a ∈ as, a.InName) ∧ (segment ≠ [] → as ≠ []) := by
  unfold segmentAtoms at h
  split_ifs at h
  · cases h
    exact ⟨by simp [Atom.InName.notSlash, Atom.InName.run], by simp⟩
  · exact ⟨charAtoms_inName hslash hclass h, fun hne => charAtoms_ne_nil hne h⟩

theorem closed_append {as bs : List Atom} (has : ∀ a ∈ as, a.InName)
    (h : Closed (matchAtoms bs)) : Closed (matchAtoms (as ++ bs)) := by
  induction as with
  | nil => exact h
  | cons a as ih =>
    obtain ⟨ha, htail⟩ := List.forall_mem_cons.mp has
    cases ha with
    | char _ => exact closed_char (ih htail) _
    | notSlash => exact closed_notSlash (ih htail)
    | run => exact closed_run (ih htail)

/-- The same for a directory that is not the top: a slash stands in its path, and it is the last
character. -/
def ClosedInside (k : List Char → Bool) : Prop :=
  ∀ path more, IsDirPath path → path ≠ [] → k path = true → k (path ++ more) = true

theorem ClosedInside.afterRun {k : List Char → Bool} (hk : ClosedInside k) :
    ClosedInside (afterRun (· != '/') k) := by
  intro path more hdir hne h
  induction path with
  | nil => exact absurd rfl hne
  | cons c cs ih =>
    simp only [Pattern.afterRun, Bool.or_eq_true, Bool.and_eq_true, bne_iff_ne] at h
    simp only [List.cons_append, Pattern.afterRun, Bool.or_eq_true, Bool.and_eq_true, bne_iff_ne]
    rcases h with h | ⟨hc, h⟩
    · exact .inl (hk _ more hdir hne h)
    · exact .inr ⟨hc, ih hdir.tail (hdir.tail_ne_nil hc) h⟩

/-- The atoms of a name leave the slash at the end of a directory's path for the last atom. -/
theorem closedInside_boundary {as : List Atom} (has : ∀ a ∈ as, a.InName) :
    ClosedInside (matchAtoms (as ++ [.boundary])) := by
  induction as with
  | nil =>
    intro path more hdir hne h
    have hhead : path.head? = some '/' := by
      simp only [List.nil_append, matchAtoms, atEnd, Bool.and_true, Bool.or_eq_true, beq_iff_eq] at h
      rcases h with (h | rfl) | h
      · exact absurd h hne
      · exact absurd (hdir '\n' rfl) (by decide)
      · exact h
    simp [matchAtoms, List.head?_append, hhead]
  | cons a as ih =>
    obtain ⟨ha, htail⟩ := List.forall_mem_cons.mp has
    intro path more hdir hne h
    cases ha with
    | run =>
      rw [List.cons_append, matchAtoms] at h ⊢
      exact (ih htail).afterRun path more hdir hne h
    | @char c hc =>
      obtain ⟨d, ds, rfl⟩ := List.exists_cons_of_ne_nil hne
      simp only [List.cons_append, matchAtoms, Bool.and_eq_true, beq_iff_eq] at h ⊢
      exact ⟨h.1, ih htail ds more hdir.tail (hdir.tail_ne_nil (h.1 ▸ hc)) h.2⟩
    | notSlash =>
      obtain ⟨d, ds, rfl⟩ := List.exists_cons_of_ne_nil hne
      simp only [List.cons_append, matchAtoms, Bool.and_eq_true, bne_iff_ne] at h ⊢
      exact ⟨h.1, ih htail ds more hdir.tail (hdir.tail_ne_nil h.1) h.2⟩

theorem afterRun_boundary (cs : List Char) :
    afterRun (· != '/') (matchAtoms [.boundary]) cs = true := by
  induction cs with
  | nil => rfl
  | cons c cs ih =>
    by_cases hc : c = '/'
    · exact afterRun_of_here _ (by simp [matchAtoms, hc])
    · simp only [afterRun, bne_iff_ne.mpr hc, ih, Bool.true_and, Bool.or_true]

theorem matchAtoms_of_nil {as : List Atom} (has : ∀ a ∈ as, a.InName) (hne : as ≠ [])
    (h : matchAtoms (as ++ [.boundary]) [] = true) (path : List Char) :
    matchAtoms (as ++ [.boundary]) path = true := by
  induction as with
  | nil => exact absurd rfl hne
  | cons a as ih =>
    obtain ⟨ha, htail⟩ := List.forall_mem_cons.mp has
    cases ha with
    | char _ => simp [matchAtoms] at h
    | notSlash => simp [matchAtoms] at h
    | run =>
      rw [List.cons_append, matchAtoms] at h ⊢
      cases as with
      | nil => exact afterRun_boundary path
      | cons b bs => exact afterRun_of_here _ (ih htail (by simp) h)

theorem closed_boundary {as : List Atom} (has : ∀ a ∈ as, a.InName) (hne : as ≠ []) :
    Closed (matchAtoms (as ++ [.boundary])) := by
  intro path more hdir h
  by_cases hpath : path = []
  · subst hpath
    exact matchAtoms_of_nil has hne h more
  · exact closedInside_boundary has path more hdir hpath h

structure PlainSegments (segments : List (List Char)) : Prop where
  noSlash : ∀ s ∈ segments, '/' ∉ s
  noClass : ∀ s ∈ segments, '[' ∉ s
  last : segments.getLast? ≠ some []

theorem PlainSegments.tail {s : List Char} {segments : List (List Char)}
    (h : PlainSegments (s :: segments)) : PlainSegments segments where
  noSlash := fun s hs => h.noSlash s (List.mem_cons_of_mem _ hs)
  noClass := fun s hs => h.noClass s (List.mem_cons_of_mem _ hs)
  last := by
    intro hlast
    exact h.last (by simp [List.getLast?_cons, hlast])

theorem PlainSegments.head_inName {s : List Char} {segments : List (List Char)} {as : List Atom}
    (h : PlainSegments (s :: segments)) (has : segmentAtoms s = .ok as) :
    (∀ a ∈ as, a.InName) ∧ (segments = [] → as ≠ []) := by
  obtain ⟨hin, hne⟩ := segmentAtoms_inName (h.noSlash s List.mem_cons_self)
    (h.noClass s List.mem_cons_self) has
  refine ⟨hin, ?_⟩
  rintro rfl
  exact hne fun hs => h.last (by simp [hs])

theorem closed_segments {segments : List (List Char)} {as bs : List Atom}
    (has : ∀ a ∈ as, a.InName) (hne : segments = [] → as ≠ [])
    (hseg : PlainSegments segments) (hbs : restAtoms segments = .ok bs) :
    Closed (matchAtoms (as ++ bs)) := by
  fun_induction restAtoms segments generalizing as bs with
  | case1 =>
    cases hbs
    exact closed_boundary has (hne rfl)
  | case2 segment hstar =>
    cases hbs
    exact closed_append has (closed_char (fun _ _ _ _ => rfl) '/')
  | case3 segment hstar =>
    obtain ⟨cs, hcs, rfl⟩ := map_eq_ok_iff.mp hbs
    obtain ⟨hin, hne⟩ := hseg.head_inName hcs
    exact closed_append has (closed_char (closed_boundary hin (hne rfl)) '/')
  | case4 segment rest hrest hstar ih =>
    obtain ⟨cs, hcs, rfl⟩ := map_eq_ok_iff.mp hbs
    have hcs : Closed (matchAtoms ([] ++ cs)) :=
      ih (by simp) (fun h => absurd h hrest) hseg.tail hcs
    exact closed_append has (closed_innerDirs hcs)
  | case5 segment rest hrest hstar ih =>
    obtain ⟨cs, hcs, hbs⟩ := bind_eq_ok_iff.mp hbs
    obtain ⟨ds, hds, hbs⟩ := bind_eq_ok_iff.mp hbs
    cases hbs
    have hin := (hseg.head_inName hcs).1
    exact closed_append has (closed_char (ih hin (fun h => absurd h hrest) hseg.tail hds) '/')

theorem closed_allAtoms {segments : List (List Char)} {as : List Atom} (hseg : PlainSegments segments)
    (h : allAtoms segments = .ok as) : Closed (matchAtoms as) := by
  unfold allAtoms at h
  split at h
  · cases h
    exact fun _ _ _ _ => rfl
  · split_ifs at h
    · split at h
      · cases h
        exact fun _ _ _ _ => rfl
      · obtain ⟨bs, hbs, h⟩ := bind_eq_ok_iff.mp h
        obtain ⟨cs, hcs, h⟩ := bind_eq_ok_iff.mp h
        cases h
        obtain ⟨hin, hne⟩ := hseg.tail.head_inName hbs
        exact closed_leadingDirs (closed_segments hin hne hseg.tail.tail hcs)
    · obtain ⟨bs, hbs, h⟩ := bind_eq_ok_iff.mp h
      obtain ⟨cs, hcs, h⟩ := bind_eq_ok_iff.mp h
      cases h
      obtain ⟨hin, hne⟩ := hseg.head_inName hbs
      exact closed_segments hin hne hseg.tail hcs

theorem mem_collapse {s : List Char} {segments : List (List Char)} (h : s ∈ collapse segments) :
    s ∈ segments := by
  fun_induction collapse segments with
  | case1 a b rest _ ih => exact List.mem_cons_of_mem _ (ih h)
  | case2 a b rest _ ih =>
    rcases List.mem_cons.mp h with rfl | h
    · exact List.mem_cons_self
    · exact List.mem_cons_of_mem _ (ih h)
  | case3 => exact h

theorem getLast?_collapse (segments : List (List Char)) :
    (collapse segments).getLast? = segments.getLast? := by
  fun_induction collapse segments with
  | case1 a b rest _ ih => rw [ih, List.getLast?_cons_cons]
  | case2 a b rest _ ih => rw [List.getLast?_cons, ih, List.getLast?_cons, Option.getD_some,
      List.getLast?_cons_cons, List.getLast?_cons]
  | case3 => rfl

/-- The segments before those at the end and repeated pairs of stars are seen to. Only a lone slash
leaves a single empty one. -/
theorem normalSegments_eq (text : List Char) : ∃ anchored : List (List Char),
    (∀ s ∈ anchored, s ∈ Text.splitAt '/' text ∨ s = doubleStar) ∧
    (anchored = [[]] → text = ['/']) ∧
    normalSegments text = collapse (if 1 < anchored.length && anchored.getLast? == some []
      then anchored.dropLast ++ [doubleStar] else anchored) := by
  have hjoin := Text.intercalate_splitAt '/' text
  unfold normalSegments
  generalize Text.splitAt '/' text = segments at hjoin ⊢
  refine ⟨_, fun s hs => ?_, fun hlone => ?_, rfl⟩
  · split at hs
    · exact .inl (List.mem_cons_of_mem _ hs)
    · split_ifs at hs
      · exact .inl hs
      · exact (List.mem_cons.mp hs).symm
    · split_ifs at hs
      · exact .inl hs
      · exact (List.mem_cons.mp hs).symm
    · exact .inl hs
  · split at hlone
    · rw [← hjoin, hlone]
      rfl
    · rename_i s _
      split_ifs at hlone with hstar
      · simp_all [doubleStar]
      · simp at hlone
    · split_ifs at hlone <;> simp at hlone
    · rename_i hne _ _
      exact absurd hlone (hne [])

theorem mem_normalSegments {text s : List Char} (hs : s ∈ normalSegments text) :
    s ∈ Text.splitAt '/' text ∨ s = doubleStar := by
  obtain ⟨anchored, hmem, -, heq⟩ := normalSegments_eq text
  rw [heq] at hs
  have hs := mem_collapse hs
  split_ifs at hs
  · rcases List.mem_append.mp hs with hs | hs
    · exact hmem s (List.dropLast_subset _ hs)
    · exact .inr (List.mem_singleton.mp hs)
  · exact hmem s hs

theorem plainSegments_normalSegments {text : List Char} (hslash : text ≠ ['/'])
    (hclass : '[' ∉ text) : PlainSegments (normalSegments text) := by
  obtain ⟨anchored, hmem, hlone, heq⟩ := normalSegments_eq text
  refine ⟨fun s hs hc => ?_, fun s hs hc => ?_, ?_⟩
  · rcases mem_normalSegments hs with hs | rfl
    · exact (Text.mem_splitAt hs hc).2 rfl
    · revert hc
      decide
  · rcases mem_normalSegments hs with hs | rfl
    · exact hclass (Text.mem_splitAt hs hc).1
    · revert hc
      decide
  · rw [heq, getLast?_collapse]
    split_ifs with hclosed
    · simp [doubleStar]
    · intro hlast
      refine hslash (hlone ?_)
      match anchored with
      | [] => simp at hlast
      | [s] => simpa using hlast
      | _ :: _ :: _ => simp [hlast] at hclosed

theorem Closed.of_monotone {k : List Char → Bool}
    (h : ∀ path more, k path = true → k (path ++ more) = true) : Closed k :=
  fun path more _ => h path more

theorem closed_ruleOf {text : List Char} {rule : Rule} (hslash : text ≠ ['/'])
    (hclass : '[' ∉ text) (h : ruleOf text = .ok rule) : Closed rule.applies := by
  have heverything : Closed (Rule.applies .everything) :=
    .of_monotone fun path more hp => by simp_all [Rule.applies]
  have hbelow : Closed (Rule.applies .belowDirectory) :=
    .of_monotone fun path more hp => by simp_all [Rule.applies]
  have hseg := plainSegments_normalSegments hslash hclass
  have hstars : Closed (Rule.applies (if text.getLast? == some '/' then .belowDirectory
      else .everything)) := by
    split
    · exact hbelow
    · exact heverything
  unfold ruleOf at h
  generalize (if text.getLast? == some '/' then Rule.belowDirectory else .everything) = stars at *
  dsimp only at h
  split_ifs at h
  · cases h
    exact hstars
  · cases h
    exact heverything
  · cases h
    exact hbelow
  · split at h
    · cases h
      exact fun _ _ _ hp => hp
    · cases h
    · rename_i as has
      split_ifs at h
      cases h
      exact closed_allAtoms hseg has

/-- A line that takes nothing back and has no class in it. -/
def IsPlain (line : String) : Prop := line.toList.head? ≠ some '!' ∧ '[' ∉ line.toList

instance (line : String) : Decidable (IsPlain line) := inferInstanceAs (Decidable (_ ∧ _))

theorem trimEnd_isPrefix (line : List Char) : trimEnd line <+: line := by
  unfold trimEnd
  split_ifs
  · exact List.prefix_rfl
  · rw [Text.dropEndWhile, ← List.reverse_suffix, List.reverse_reverse]
    exact List.dropWhile_suffix _

theorem closed_ofString {line : String} {p : Pattern} (hplain : IsPlain line)
    (h : ofString line = .ok p) : p.negated = false ∧ Closed p.rule.applies := by
  obtain ⟨hmark, hclass⟩ := hplain
  have hbegin := trimEnd_isPrefix line.toList
  have hnothing : Closed (Rule.applies .nothing) := fun _ _ _ hp => hp
  unfold ofString ofChars at h
  split at h
  · cases h
    exact ⟨rfl, hnothing⟩
  · cases h
    exact ⟨rfl, hnothing⟩
  · cases h
    exact ⟨rfl, hnothing⟩
  · rename_i text htrim
    rw [htrim] at hbegin
    obtain ⟨rest, hrest⟩ := hbegin
    simp [← hrest] at hmark
  · rename_i text _ _ hslash _ 
    obtain ⟨rule, hrule, rfl⟩ := map_eq_ok_iff.mp h
    exact ⟨rfl, closed_ruleOf hslash (fun hc => hclass (hbegin.subset hc)) hrule⟩

theorem relativePath_below (dir more : List Char) :
    relativePath (dir ++ '/' :: more) = relativePath (dir ++ ['/']) ++ more := by
  match dir with
  | [] => rfl
  | [c] => by_cases hc : c = '.' <;> by_cases hs : c = '/' <;> simp_all [relativePath]
  | c :: d :: rest =>
    unfold relativePath
    split <;> simp_all

theorem IsDirPath.relativePath {path : List Char} (h : IsDirPath path) :
    IsDirPath (relativePath path) := by
  unfold Pattern.relativePath
  split
  · exact h.tail
  · exact h.tail.tail
  · exact h

theorem applies_below {p : Pattern} (h : Closed p.rule.applies) {dir : List Char}
    (more : List Char) (hdir : p.applies (dir ++ ['/']) = true) :
    p.applies (dir ++ '/' :: more) = true := by
  have hpath : IsDirPath (dir ++ ['/']) := by simp [IsDirPath]
  rw [applies, relativePath_below]
  exact h _ more hpath.relativePath hdir

end Pattern

namespace PatternSpec

open Pattern (IsPlain)

theorem mem_patterns_ofLines {lines : List String} {spec : PatternSpec}
    (h : ofLines lines = .ok spec) {p : Pattern} (hp : p ∈ spec.patterns) :
    ∃ line ∈ lines, Pattern.ofString line = .ok p := by
  obtain ⟨ps, hps, rfl⟩ := map_eq_ok_iff.mp h
  have hmem : ∀ {ls : List String} {ps : List Pattern}, ls.mapM Pattern.ofString = .ok ps →
      p ∈ ps → ∃ line ∈ ls, Pattern.ofString line = .ok p := by
    intro ls
    induction ls with
    | nil =>
      intro ps hps hp
      cases hps
      simp at hp
    | cons l ls ih =>
      intro ps hps hp
      rw [List.mapM_cons] at hps
      obtain ⟨q, hq, hps⟩ := bind_eq_ok_iff.mp hps
      obtain ⟨qs, hqs, hps⟩ := bind_eq_ok_iff.mp hps
      cases hps
      rcases List.mem_cons.mp hp with rfl | hp
      · exact ⟨l, List.mem_cons_self, hq⟩
      · obtain ⟨line, hline, hof⟩ := ih hqs hp
        exact ⟨line, List.mem_cons_of_mem _ hline, hof⟩
  obtain ⟨line, hline, hof⟩ := hmem hps hp
  exact ⟨line, List.mem_of_mem_filter hline, hof⟩

theorem ignores_iff {spec : PatternSpec} (h : ∀ p ∈ spec.patterns, p.negated = false)
    (path : String) : spec.ignores path = true ↔ ∃ p ∈ spec.patterns, p.applies path.toList = true := by
  unfold ignores
  split
  · rename_i p hp
    have hmem : p ∈ spec.patterns := by simpa using List.mem_of_find?_eq_some hp
    simp only [h p hmem, Bool.not_false, true_iff]
    exact ⟨p, hmem, by simpa using List.find?_some hp⟩
  · rename_i hnone
    simpa using hnone

theorem ignores_below {lines : List String} {spec : PatternSpec}
    (hplain : ∀ line ∈ lines, IsPlain line) (h : ofLines lines = .ok spec) (dir more : String)
    (hdir : spec.ignores (dir ++ "/") = true) : spec.ignores (dir ++ "/" ++ more) = true := by
  have hpatterns : ∀ p ∈ spec.patterns, p.negated = false ∧ Pattern.Closed p.rule.applies := by
    intro p hp
    obtain ⟨line, hline, hof⟩ := mem_patterns_ofLines h hp
    exact Pattern.closed_ofString (hplain line hline) hof
  rw [ignores_iff fun p hp => (hpatterns p hp).1] at hdir ⊢
  obtain ⟨p, hp, happlies⟩ := hdir
  refine ⟨p, hp, ?_⟩
  rw [String.append_assoc, String.toList_append, String.toList_append]
  exact Pattern.applies_below (hpatterns p hp).2 more.toList (by simpa using happlies)

end PatternSpec

end ImportGroups
