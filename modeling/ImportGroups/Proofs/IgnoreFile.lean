import ImportGroups.Proofs.Exclusion
import ImportGroups.Proofs.Lines
import ImportGroups.Proofs.Utf8

/-!
Patterns in an ignore file against patterns of a configuration.

The text of an ignore file is cut into lines, and every line is trimmed at both ends, before the
lines are read as patterns. So an ignore file means what its trimmed lines mean as patterns of a
configuration. Trimming changes nothing for a line that starts without white space, has no line end
inside and does not end in an escaped space.
-/

namespace ImportGroups

theorem Text.decodeUtf8Lossy_encodeUtf8 (s : String) : decodeUtf8Lossy (encodeUtf8 s) = s := by
  have hback : (s.toList.map some).filterMap id = s.toList := by simp
  rw [decodeUtf8Lossy, encodeUtf8_eq, utf8Pieces_flatMap, hback, String.ofList_toList]

namespace PatternSpec

variable {lines : List String} {l : String}

/-- The patterns of the lines, without those that match nothing. -/
def decisive (lines : List String) : Except PatternError (List Pattern) :=
  (lines.mapM Pattern.ofString).map (·.filter (·.rule != .nothing))

theorem decisive_append (lines more : List String) :
    decisive (lines ++ more) = decisive lines >>= fun ps => (decisive more).map (ps ++ ·) := by
  unfold decisive
  rw [List.mapM_append]
  cases lines.mapM Pattern.ofString with
  | error e => rfl
  | ok ps =>
    cases more.mapM Pattern.ofString with
    | error e => rfl
    | ok qs =>
      change Except.ok ((ps ++ qs).filter _) = Except.ok (ps.filter _ ++ qs.filter _)
      rw [List.filter_append]

theorem decisive_of_nothing {b : Bool} (h : Pattern.ofString l = .ok ⟨b, .nothing⟩) :
    decisive [l] = .ok [] := by
  unfold decisive
  rw [List.mapM_cons, h]
  rfl

theorem decisive_flatMap {g : String → List String} (h : ∀ l ∈ lines, decisive (g l) = decisive [l]) :
    decisive (lines.flatMap g) = decisive lines := by
  induction lines with
  | nil => rfl
  | cons l lines ih =>
    obtain ⟨hl, hlines⟩ := List.forall_mem_cons.mp h
    rw [List.flatMap_cons, decisive_append, hl, ih hlines, ← decisive_append, List.singleton_append]

theorem decisive_filter {keep : String → Bool}
    (h : ∀ l ∈ lines, keep l = false → decisive [l] = .ok []) :
    decisive (lines.filter keep) = decisive lines := by
  have hfilter : lines.filter keep = lines.flatMap fun l => if keep l then [l] else [] := by
    induction lines with
    | nil => rfl
    | cons l lines ih =>
      have ih := ih fun l hl => h l (List.mem_cons_of_mem _ hl)
      by_cases hl : keep l = true <;> simp [hl, ih]
  -- a line that is dropped gives way to no lines
  rw [hfilter]
  apply decisive_flatMap
  intro l hl
  by_cases hkeep : keep l = true
  · rw [if_pos hkeep]
  · rw [if_neg hkeep, h l hl (by simpa using hkeep)]
    rfl

theorem decisive_of_all (h : ∀ l ∈ lines, decisive [l] = .ok []) : decisive lines = .ok [] := by
  have hnil : decisive (lines.filter fun _ => false) = decisive lines :=
    decisive_filter fun l hl _ => h l hl
  rw [← hnil, List.filter_false]
  rfl

theorem ignores_filter (ps : List Pattern) (path : String) :
    (PatternSpec.mk (ps.filter (·.rule != .nothing))).ignores path =
      (PatternSpec.mk ps).ignores path := by
  have happlies : ∀ p : Pattern, p.applies path.toList = true → (p.rule != .nothing) = true := by
    intro p hp
    cases hrule : p.rule with
    | nothing => simp [Pattern.applies, hrule, Pattern.Rule.applies] at hp
    | everything => rfl
    | belowDirectory => rfl
    | atoms as => rfl
  have hfind : (ps.filter (·.rule != .nothing)).reverse.find? (·.applies path.toList) =
      ps.reverse.find? (·.applies path.toList) := by
    rw [← List.filter_reverse, List.find?_filter]
    congr 1
    funext p
    by_cases hp : p.applies path.toList = true
    · simp [hp, happlies p hp]
    · simp [hp]
  unfold ignores
  rw [hfind]

theorem map_ignores_ofLines (lines : List String) :
    (ofLines lines).map ignores = (decisive lines).map fun ps => ignores ⟨ps⟩ := by
  have hempty : decisive (lines.filter (· != "")) = decisive lines := by
    apply decisive_filter
    intro l _ hl
    have hl : l = "" := by simpa using hl
    subst hl
    exact decisive_of_nothing rfl
  rw [← hempty, decisive, ofLines]
  cases (lines.filter (· != "")).mapM Pattern.ofString with
  | error e => rfl
  | ok ps =>
    change Except.ok (ignores ⟨ps⟩) = Except.ok (ignores ⟨ps.filter _⟩)
    congr 1
    funext path
    exact (ignores_filter ps path).symm

end PatternSpec

open PatternSpec (decisive)

theorem matchedPaths_ignoreSpec? {t : FileTree} {cwd : List String} {dir : Path}
    {content : Text.Bytes} (h : t.find? cwd (dir.child ".gitignore") = .ok (some (.file content))) :
    matchedPaths (t.ignoreSpec? cwd dir) = ((decisive (ignoreLines content)).map fun ps =>
      PatternSpec.ignores ⟨ps⟩).mapError .badPattern := by
  rw [← PatternSpec.map_ignores_ofLines, FileTree.ignoreSpec?_of_file h]
  cases PatternSpec.ofLines (ignoreLines content) <;> rfl

/-- The lines of a text, each without white space at its ends. -/
def trimmedLines (text : String) : List String :=
  (Text.lines text.toList).map fun l => .ofList (Text.trimWhile Text.isBlank l)

theorem decisive_empty : decisive [""] = .ok [] := PatternSpec.decisive_of_nothing rfl

theorem trimEnd_dropEndWhile (cs : List Char) :
    Pattern.trimEnd (Text.dropEndWhile Text.isBlank cs) = Text.dropEndWhile Text.isBlank cs := by
  unfold Pattern.trimEnd
  split_ifs
  · rfl
  · apply Text.dropEndWhile_eq_self
    intro c hc
    exact Text.getLast?_dropEndWhile hc

theorem decisive_ignoreLines (text : String) :
    decisive (ignoreLines (Text.encodeUtf8 text)) = decisive (trimmedLines text) := by
  have hlines : ignoreLines (Text.encodeUtf8 text) =
      (trimmedLines text).filter fun l => !l.toList.isEmpty && l.toList.head? != some '#' := by
    rw [ignoreLines, Text.decodeUtf8Lossy_encodeUtf8, Text.lines_unifyNewlines, trimmedLines,
      List.filter_map, List.filter_map, List.map_map]
    simp only [Function.comp_def, String.toList_ofList]
  rw [hlines]
  apply PatternSpec.decisive_filter
  intro l hl hdropped
  obtain ⟨cs, -, rfl⟩ := List.mem_map.mp hl
  rw [String.toList_ofList] at hdropped
  apply PatternSpec.decisive_of_nothing (b := false)
  rw [Pattern.ofString, String.toList_ofList, Pattern.ofChars, Text.trimWhile,
    trimEnd_dropEndWhile, ← Text.trimWhile]
  cases htrim : Text.trimWhile Text.isBlank cs with
  | nil => rfl
  | cons c rest =>
    -- a line that is not empty is dropped only as a comment
    have hc : c = '#' := by simpa [htrim] using hdropped
    subst hc
    rfl

theorem decisive_trimmedLines_lf (text : String) :
    decisive (trimmedLines (text ++ "\n")) = decisive (trimmedLines text) := by
  have htext : (text ++ "\n").toList = text.toList ++ ['\n'] := by simp
  rw [trimmedLines, htext]
  rcases Text.lines_concat_lf text.toList with h | h
  · rw [h, trimmedLines]
  · rw [h, List.map_append, PatternSpec.decisive_append, ← trimmedLines]
    have hlast : decisive ([[]].map fun l => String.ofList (Text.trimWhile Text.isBlank l)) = .ok [] :=
      decisive_empty
    rw [hlast]
    cases decisive (trimmedLines text) <;> simp [bind, Except.bind, Except.map]

def lineText (lines : List String) : String := String.join (lines.map (· ++ "\n"))

theorem decisive_trimmedLines_lineText (lines : List String) :
    decisive (trimmedLines (lineText lines)) = decisive (lines.flatMap trimmedLines) := by
  induction lines with
  | nil => rfl
  | cons l lines ih =>
    have htext : (lineText (l :: lines)).toList = l.toList ++ '\n' :: (lineText lines).toList := by
      simp [lineText, String.toList_join]
    have hsplit : trimmedLines (lineText (l :: lines)) =
        trimmedLines (l ++ "\n") ++ trimmedLines (lineText lines) := by
      rw [trimmedLines, htext, Text.lines_append_lf, List.map_append]
      simp [trimmedLines]
    rw [hsplit, List.flatMap_cons, PatternSpec.decisive_append, PatternSpec.decisive_append,
      decisive_trimmedLines_lf, ih]

/-- A line that trimming leaves as it is, white space at its end apart. -/
structure Steady (l : String) : Prop where
  noEscape : ¬ ['\\', ' '] <:+ l.toList
  noIndent : ∀ c ∈ (Text.dropEndWhile Text.isBlank l.toList).head?, Text.isBlank c = false
  oneLine : ∀ c ∈ Text.dropEndWhile Text.isBlank l.toList, Text.isLineEnd c = false

theorem steady_iff {l : String} : ((!List.isSuffixOf ['\\', ' '] l.toList &&
    (Text.dropEndWhile Text.isBlank l.toList).head?.all (!Text.isBlank ·)) &&
      (Text.dropEndWhile Text.isBlank l.toList).all (!Text.isLineEnd ·)) = true ↔ Steady l := by
  simp only [Bool.and_eq_true, Bool.not_eq_true', ← Bool.not_eq_true, List.isSuffixOf_iff_suffix,
    List.all_eq_true, Option.all_eq_true, and_assoc]
  constructor
  · rintro ⟨hescape, hindent, hone⟩
    exact ⟨hescape, by simpa using hindent, by simpa using hone⟩
  · rintro ⟨hescape, hindent, hone⟩
    exact ⟨hescape, by simpa using hindent, by simpa using hone⟩

instance (l : String) : Decidable (Steady l) := decidable_of_iff _ steady_iff

theorem Steady.trimEnd {l : String} (h : Steady l) :
    Pattern.trimEnd l.toList = Text.dropEndWhile Text.isBlank l.toList := by
  rw [Pattern.trimEnd, if_neg]
  intro hsuffix
  exact h.noEscape (List.isSuffixOf_iff_suffix.mp hsuffix)

theorem decisive_of_blank {lines : List String} (h : ∀ l ∈ lines, l = "") :
    decisive lines = .ok [] := by
  apply PatternSpec.decisive_of_all
  intro l hl
  rw [h l hl]
  exact decisive_empty

theorem trimWhile_of_mem_lines {text : List Char} (h : ∀ c ∈ text, Text.isBlank c = true)
    {l : List Char} (hl : l ∈ Text.lines text) : Text.trimWhile Text.isBlank l = [] := by
  apply Text.trimWhile_of_all
  intro c hc
  exact h c (Text.mem_lines hl hc).1

theorem Steady.ofString_eq {l : String} (h : Steady l) :
    Pattern.ofString (.ofList (Text.dropEndWhile Text.isBlank l.toList)) = Pattern.ofString l := by
  rw [Pattern.ofString, Pattern.ofString, String.toList_ofList, Pattern.ofChars, Pattern.ofChars,
    trimEnd_dropEndWhile, h.trimEnd]

theorem Steady.decisive_trimmedLines {l : String} (h : Steady l) :
    decisive (trimmedLines l) = decisive [l] := by
  obtain ⟨blanks, hl, hblanks⟩ := Text.exists_append_dropEndWhile Text.isBlank l.toList
  by_cases hempty : Text.dropEndWhile Text.isBlank l.toList = []
  · rw [hempty, List.nil_append] at hl
    have hpattern := h.ofString_eq
    rw [hempty] at hpattern
    rw [PatternSpec.decisive_of_nothing (l := l) hpattern.symm]
    apply decisive_of_blank
    intro line hline
    obtain ⟨cs, hcs, rfl⟩ := List.mem_map.mp hline
    rw [hl] at hcs
    rw [trimWhile_of_mem_lines hblanks hcs]
  · -- the blanks may hold line ends: what they add behind the first line is blank
    have hlines := Text.lines_append_of_no_lineEnd hempty h.oneLine blanks
    rw [← hl] at hlines
    have hfirst : Text.trimWhile Text.isBlank
        (Text.dropEndWhile Text.isBlank l.toList ++ (Text.lines blanks).headD []) =
          Text.dropEndWhile Text.isBlank l.toList := by
      apply Text.trimWhile_between [] _ _ (by simp) _ h.noIndent
      · intro c hc
        exact Text.getLast?_dropEndWhile hc
      · intro c hc
        cases hb : Text.lines blanks with
        | nil => simp [hb] at hc
        | cons b bs =>
          have hmem : b ∈ Text.lines blanks := by simp [hb]
          exact hblanks c (Text.mem_lines hmem (by simpa [hb] using hc)).1
    have hrest : decisive ((Text.lines blanks).tail.map fun cs =>
        String.ofList (Text.trimWhile Text.isBlank cs)) = .ok [] := by
      apply decisive_of_blank
      intro line hline
      obtain ⟨cs, hcs, rfl⟩ := List.mem_map.mp hline
      rw [trimWhile_of_mem_lines hblanks (List.mem_of_mem_tail hcs)]
    have hsame : decisive [String.ofList (Text.dropEndWhile Text.isBlank l.toList)] =
        decisive [l] := by
      rw [decisive, decisive, List.mapM_cons, List.mapM_cons, h.ofString_eq]
    rw [trimmedLines, hlines, List.map_cons, hfirst, ← List.singleton_append,
      PatternSpec.decisive_append, hrest, hsame]
    cases decisive [l] <;> simp [bind, Except.bind, Except.map]

/-- An ignore file means what its trimmed lines mean as patterns of a configuration, and what the
lines themselves mean if trimming leaves them as they are. -/
theorem ignore_file_as_patterns {t : FileTree} {cwd : List String} {dir : Path} {text : String}
    {lines : List String} (htext : text = lineText lines ∨ text ++ "\n" = lineText lines)
    (hfile : t.find? cwd (dir.child ".gitignore") = .ok (some (.file (Text.encodeUtf8 text)))) :
    matchedPaths (t.ignoreSpec? cwd dir) =
      (matchedPaths (excludeSpec? (lines.flatMap trimmedLines))).mapError .badPattern ∧
    ((∀ l ∈ lines, Steady l) →
      matchedPaths (t.ignoreSpec? cwd dir) =
        (matchedPaths (excludeSpec? lines)).mapError .badPattern) := by
  have hdecisive : decisive (ignoreLines (Text.encodeUtf8 text)) =
      decisive (lines.flatMap trimmedLines) := by
    rw [decisive_ignoreLines, ← decisive_trimmedLines_lineText]
    rcases htext with rfl | htext
    · rfl
    · rw [← htext, decisive_trimmedLines_lf]
  rw [matchedPaths_ignoreSpec? hfile, hdecisive, matchedPaths_excludeSpec?,
    matchedPaths_excludeSpec?, PatternSpec.map_ignores_ofLines, PatternSpec.map_ignores_ofLines]
  refine ⟨rfl, ?_⟩
  intro hsteady
  rw [PatternSpec.decisive_flatMap fun l hl => (hsteady l hl).decisive_trimmedLines]

def ignoreTree (text : String) : FileTree where
  entries := [(".gitignore", .file (Text.encodeUtf8 text))]

theorem ignoreTree_find? (text : String) :
    (ignoreTree text).find? [] (({} : Path).child ".gitignore") =
      .ok (some (.file (Text.encodeUtf8 text))) := by
  have hlocate : (ignoreTree text).locate [] ⟨.relative, [".gitignore"]⟩ =
      .ok ([".gitignore"], .file (Text.encodeUtf8 text)) := by
    rw [FileTree.locate, if_neg (by decide), if_neg (by decide), FileTree.locateFrom,
      if_neg (by decide), if_neg (by decide), if_neg (by decide)]
    rfl
  have hchild : ({} : Path).child ".gitignore" = ⟨.relative, [".gitignore"]⟩ := by decide
  rw [FileTree.find?, hchild, hlocate]

/-- A comment, white space at the end of a line and a pattern that takes back. -/
theorem ignore_file_as_patterns_keep :
    (∀ l ∈ ["# built", "out/ ", "", "!out/keep"], Steady l) ∧
    matchedPaths ((ignoreTree "# built\nout/ \n\n!out/keep").ignoreSpec? [] {}) =
      (matchedPaths (excludeSpec? ["# built", "out/ ", "", "!out/keep"])).mapError .badPattern := by
  have hsteady : ∀ l ∈ ["# built", "out/ ", "", "!out/keep"], Steady l := by decide
  refine ⟨hsteady, ?_⟩
  exact (ignore_file_as_patterns (.inr (by decide)) (ignoreTree_find? _)).2 hsteady

/-- An escaped space at the end of a line is cut off, and the escape is left dangling. -/
theorem escaped_space_cut_off :
    (∃ spec, excludeSpec? ["a\\ "] = .ok (some spec) ∧ spec.ignores "a " = true) ∧
    (ignoreTree "a\\ \n").ignoreSpec? [] {} = .error (.badPattern .danglingEscape) := by
  have hspec : excludeSpec? ["a\\ "] =
      .ok (some ⟨[⟨false, .atoms [.leadingDirs, .char 'a', .char ' ', .boundary]⟩]⟩) := by cbv
  have hlines : ignoreLines (Text.encodeUtf8 "a\\ \n") = ["a\\"] := by decide +kernel
  have herror : PatternSpec.ofLines ["a\\"] = .error .danglingEscape := by cbv
  refine ⟨⟨_, hspec, by decide⟩, ?_⟩
  rw [FileTree.ignoreSpec?_of_file (ignoreTree_find? _), hlines, herror]
  rfl

end ImportGroups
