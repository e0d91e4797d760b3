import ImportGroups.Proofs.Lines
import ImportGroups.Proofs.OwnPackages
import ImportGroups.Proofs.Utf8

/-!
The module path that a `go.mod` file declares.

A directive is the word `module`, white space and the path, bare or in quotes, with white space and a
comment around it. Its path is found behind any lines that declare no module and in front of any
text, provided that a space follows the word: a directive with a tab there is passed over. Where no
line declares a module, there is no path.
-/

namespace ImportGroups

open Text (SingleSlashes isBlank)
open modulePathOfLine? (beforeComment)

theorem singleSlashes_of_not_mem {cs : List Char} (h : '/' ∉ cs) : SingleSlashes cs := by
  induction cs with
  | nil => exact List.IsChain.nil
  | cons c cs ih =>
    have hc : c ≠ '/' := fun hc => h (by simp [hc])
    exact List.isChain_cons.mpr ⟨fun d _ hd => hc hd.1, ih fun hcs => h (List.mem_cons_of_mem c hcs)⟩

theorem Text.SingleSlashes.append {cs ds : List Char} (hcs : SingleSlashes cs) (hds : SingleSlashes ds)
    (h : cs.getLast? ≠ some '/' ∨ ds.head? ≠ some '/') : SingleSlashes (cs ++ ds) := by
  refine List.isChain_append.mpr ⟨hcs, hds, ?_⟩
  rintro c hc d hd ⟨rfl, rfl⟩
  rcases h with h | h
  · exact h hc
  · exact h hd

/-- A text without a comment stays as it is, also in front of another one, unless a slash of each
makes a comment. -/
theorem beforeComment_append {cs ds : List Char} (hcs : SingleSlashes cs)
    (h : cs.getLast? ≠ some '/' ∨ ds.head? ≠ some '/') :
    beforeComment (cs ++ ds) = cs ++ beforeComment ds := by
  induction cs with
  | nil => rfl
  | cons c cs ih =>
    obtain ⟨hhead, hcs⟩ := List.isChain_cons.mp hcs
    have hrest : beforeComment (cs ++ ds) = cs ++ beforeComment ds := by
      cases cs with
      | nil => rfl
      | cons d cs => exact ih hcs (by simpa using h)
    rw [List.cons_append, beforeComment, hrest, List.cons_append]
    -- a comment would start here with the next slash, in `cs` or where the two texts meet
    rintro rest rfl hstart
    cases cs with
    | nil =>
      rcases h with h | h
      · exact h rfl
      · exact h (by rw [List.nil_append] at hstart; simp [hstart])
    | cons d cs =>
      obtain ⟨rfl, -⟩ := List.cons.inj hstart
      exact hhead '/' rfl ⟨rfl, rfl⟩

theorem beforeComment_eq_self {cs : List Char} (h : SingleSlashes cs) : beforeComment cs = cs := by
  have happend : beforeComment (cs ++ []) = cs ++ beforeComment [] :=
    beforeComment_append h (.inr (by simp))
  rwa [List.append_nil, beforeComment, List.append_nil] at happend

inductive Quoting where
  | bare
  | double
  | back
  deriving DecidableEq, Repr

def Quoting.write : Quoting → List Char → List Char
  | bare, cs => cs
  | double, cs => '"' :: cs ++ ['"']
  | back, cs => '`' :: cs ++ ['`']

def moduleWord : List Char := ['m', 'o', 'd', 'u', 'l', 'e']

def IsGap (c : Char) : Prop := c = ' ' ∨ c = '\t'

theorem IsGap.isBlank {c : Char} (h : IsGap c) : isBlank c = true := by
  rcases h with rfl | rfl <;> rfl

/-- A line that declares a module path, in all the ways it may be laid out. -/
structure ModuleDirective where
  indent : List Char
  gap : List Char
  quoting : Quoting
  path : List Char
  trail : List Char
  comment : Option (List Char)
  indent_gap : ∀ c ∈ indent, IsGap c
  gap_gap : ∀ c ∈ gap, IsGap c
  gap_ne_nil : gap ≠ []
  path_ne_nil : path ≠ []
  path_plain : ∀ c ∈ path, isBlank c = false ∧ c ≠ '"' ∧ c ≠ '`'
  path_slashes : SingleSlashes path
  trail_gap : ∀ c ∈ trail, IsGap c
  /-- A comment stands apart from the path. -/
  trail_ne_nil : comment ≠ none → trail ≠ []

namespace ModuleDirective

variable (d : ModuleDirective)

def commentText : List Char :=
  match d.comment with
  | none => []
  | some cs => '/' :: '/' :: cs

def core : List Char := moduleWord ++ (d.gap ++ d.quoting.write d.path)

def line : List Char := d.indent ++ d.core ++ d.trail ++ d.commentText

theorem plain_of_all {cs : List Char}
    (h : (cs.all fun c => !isBlank c && (c != '"' && c != '`')) = true) :
    ∀ c ∈ cs, isBlank c = false ∧ c ≠ '"' ∧ c ≠ '`' := by
  intro c hc
  simpa using List.all_eq_true.mp h c hc

theorem slash_not_mem {cs : List Char} (h : ∀ c ∈ cs, IsGap c) : '/' ∉ cs := by
  intro hmem
  rcases h _ hmem with h | h <;> cases h

theorem singleSlashes_write (q : Quoting) {cs : List Char} (h : SingleSlashes cs) :
    SingleSlashes (q.write cs) := by
  have hquoted : ∀ c : Char, c ≠ '/' → SingleSlashes (c :: cs ++ [c]) := by
    intro c hc
    have hone : SingleSlashes [c] := singleSlashes_of_not_mem (by simpa using hc.symm)
    have hfront : SingleSlashes ([c] ++ cs) := hone.append h (.inl (by simpa using hc))
    exact hfront.append hone (.inr (by simpa using hc))
  cases q with
  | bare => exact h
  | double => exact hquoted '"' (by decide)
  | back => exact hquoted '`' (by decide)

theorem singleSlashes_core : SingleSlashes d.core := by
  have hwrite := singleSlashes_write d.quoting d.path_slashes
  have hgap := singleSlashes_of_not_mem (slash_not_mem d.gap_gap)
  have hlast : d.gap.getLast? ≠ some '/' :=
    fun h => slash_not_mem d.gap_gap (List.mem_of_getLast? h)
  have hword : SingleSlashes moduleWord := singleSlashes_of_not_mem (by decide)
  exact hword.append (hgap.append hwrite (.inl hlast)) (.inl (by decide))

theorem beforeComment_line : beforeComment d.line = d.indent ++ d.core ++ d.trail := by
  have hindent := singleSlashes_of_not_mem (slash_not_mem d.indent_gap)
  have htrail := singleSlashes_of_not_mem (slash_not_mem d.trail_gap)
  have hindentLast : d.indent.getLast? ≠ some '/' :=
    fun h => slash_not_mem d.indent_gap (List.mem_of_getLast? h)
  have htrailHead : d.trail.head? ≠ some '/' :=
    fun h => slash_not_mem d.trail_gap (List.mem_of_head? h)
  have hall : SingleSlashes (d.indent ++ d.core ++ d.trail) :=
    (hindent.append d.singleSlashes_core (.inl hindentLast)).append htrail (.inr htrailHead)
  cases hc : d.comment with
  | none => rw [line, commentText, hc, List.append_nil, beforeComment_eq_self hall]
  | some cs =>
    have hlast : (d.indent ++ d.core ++ d.trail).getLast? ≠ some '/' := by
      have hne := d.trail_ne_nil (by simp [hc])
      rw [List.getLast?_append_of_ne_nil _ hne]
      exact fun h => slash_not_mem d.trail_gap (List.mem_of_getLast? h)
    rw [line, commentText, hc, beforeComment_append hall (.inl hlast), beforeComment,
      List.append_nil]

theorem last_write : ∀ c ∈ (d.quoting.write d.path).getLast?, isBlank c = false := by
  intro c hc
  cases hq : d.quoting with
  | bare =>
    rw [hq, Quoting.write] at hc
    exact (d.path_plain c (List.mem_of_getLast? hc)).1
  | double =>
    rw [hq, Quoting.write, List.getLast?_concat] at hc
    cases hc
    rfl
  | back =>
    rw [hq, Quoting.write, List.getLast?_concat] at hc
    cases hc
    rfl

theorem head_write : ∀ c ∈ (d.quoting.write d.path).head?, isBlank c = false := by
  intro c hc
  cases hq : d.quoting with
  | bare =>
    rw [hq, Quoting.write] at hc
    exact (d.path_plain c (List.mem_of_head? hc)).1
  | double =>
    rw [hq, Quoting.write] at hc
    cases hc
    rfl
  | back =>
    rw [hq, Quoting.write] at hc
    cases hc
    rfl

theorem write_ne_nil : d.quoting.write d.path ≠ [] := by
  cases d.quoting with
  | bare => exact d.path_ne_nil
  | double => simp [Quoting.write]
  | back => simp [Quoting.write]

theorem getLast?_core : d.core.getLast? = (d.quoting.write d.path).getLast? := by
  have hne : d.gap ++ d.quoting.write d.path ≠ [] :=
    List.append_ne_nil_of_right_ne_nil _ d.write_ne_nil
  rw [core, List.getLast?_append_of_ne_nil _ hne, List.getLast?_append_of_ne_nil _ d.write_ne_nil]

theorem trim_line : Text.trimWhile isBlank (beforeComment d.line) = d.core := by
  rw [beforeComment_line]
  apply Text.trimWhile_between
  · exact fun c hc => (d.indent_gap c hc).isBlank
  · exact fun c hc => (d.trail_gap c hc).isBlank
  · intro c hc
    cases hc
    rfl
  · rw [getLast?_core]
    exact d.last_write

theorem unquote_write : Text.trimWhile (· == '`') (Text.trimWhile (· == '"')
    (d.quoting.write d.path)) = d.path := by
  -- both kinds of quotes are trimmed off in turn, so neither may touch the path itself
  have hkeep : ∀ q : Char, q = '"' ∨ q = '`' → ∀ before after : List Char,
      (∀ c ∈ before, (c == q) = true) → (∀ c ∈ after, (c == q) = true) →
        Text.trimWhile (· == q) (before ++ d.path ++ after) = d.path := by
    intro q hq before after hbefore hafter
    have hplain : ∀ c ∈ d.path, (c == q) = false := by
      intro c hc
      obtain ⟨-, hdouble, hback⟩ := d.path_plain c hc
      rcases hq with rfl | rfl
      · simpa using hdouble
      · simpa using hback
    apply Text.trimWhile_between before d.path after hbefore hafter
    · exact fun c hc => hplain c (List.mem_of_head? hc)
    · exact fun c hc => hplain c (List.mem_of_getLast? hc)
  have hself : ∀ q : Char, q = '"' ∨ q = '`' → Text.trimWhile (· == q) d.path = d.path := by
    intro q hq
    simpa using hkeep q hq [] [] (by simp) (by simp)
  cases d.quoting with
  | bare => rw [Quoting.write, hself '"' (.inl rfl), hself '`' (.inr rfl)]
  | double =>
    have hcut := hkeep '"' (.inl rfl) ['"'] ['"'] (by simp) (by simp)
    rw [Quoting.write, ← List.singleton_append, hcut, hself '`' (.inr rfl)]
  | back =>
    have hlast : ('`' :: (d.path ++ ['`'])).getLast? = some '`' := List.getLast?_concat (l := _ :: _)
    have hstay : Text.trimWhile (· == '"') ('`' :: d.path ++ ['`']) = '`' :: d.path ++ ['`'] := by
      have hends := Text.trimWhile_between (p := (· == '"')) [] ('`' :: d.path ++ ['`']) [] (by simp)
        (by simp) (by simp) (by simp [hlast])
      simpa using hends
    have hcut := hkeep '`' (.inr rfl) ['`'] ['`'] (by simp) (by simp)
    rw [Quoting.write, hstay, ← List.singleton_append, hcut]

theorem modulePathOfLine?_of_space (h : d.gap.head? = some ' ') :
    modulePathOfLine? d.line = some (some (.ofList d.path)) := by
  obtain ⟨gap, hgap⟩ := List.head?_eq_some_iff.mp h
  have hcore : d.core = "module ".toList ++ (gap ++ d.quoting.write d.path) := by
    rw [core, hgap]
    rfl
  have hdrop : Text.trimWhile isBlank (gap ++ d.quoting.write d.path) = d.quoting.write d.path := by
    have hblank : ∀ c ∈ gap, isBlank c = true :=
      fun c hc => (d.gap_gap c (by simp [hgap, hc])).isBlank
    simpa using Text.trimWhile_between gap _ [] hblank (by simp) d.head_write d.last_write
  have hpath : d.path.isEmpty = false := by simpa using d.path_ne_nil
  unfold modulePathOfLine?
  dsimp only
  rw [d.trim_line, hcore, if_pos (List.isPrefixOf_iff_prefix.mpr (List.prefix_append _ _))]
  have hlength : ("module ".toList ++ (gap ++ d.quoting.write d.path)).drop "module ".length =
      gap ++ d.quoting.write d.path := rfl
  rw [hlength, hdrop, d.unquote_write, hpath]
  rfl

theorem modulePathOfLine?_of_tab (h : d.gap.head? = some '\t') :
    modulePathOfLine? d.line = none := by
  obtain ⟨gap, hgap⟩ := List.head?_eq_some_iff.mp h
  unfold modulePathOfLine?
  dsimp only
  rw [d.trim_line, core, hgap]
  rfl

end ModuleDirective

/-- The characters up to the first white space behind any at the beginning. -/
def firstWord (cs : List Char) : List Char :=
  (cs.dropWhile isBlank).takeWhile fun c => !isBlank c

def DeclaresModule (line : List Char) : Prop := firstWord (beforeComment line) = moduleWord

theorem modulePathOfLine?_eq_none {line : List Char} (h : ¬ DeclaresModule line) :
    modulePathOfLine? line = none := by
  unfold modulePathOfLine?
  dsimp only
  rw [if_neg]
  -- trimming leaves the first word where it is
  intro hstart
  obtain ⟨rest, hrest⟩ := List.isPrefixOf_iff_prefix.mp hstart
  obtain ⟨blanks, hblanks, -⟩ :=
    Text.exists_append_dropEndWhile isBlank ((beforeComment line).dropWhile isBlank)
  apply h
  rw [DeclaresModule, firstWord, hblanks, ← Text.trimWhile, ← hrest]
  rfl

theorem modulePath?_of_lines {text : String} {before after : List (List Char)} {line : List Char}
    (hlines : Text.lines text.toList = before ++ line :: after)
    (hbefore : ∀ l ∈ before, ¬ DeclaresModule l) :
    modulePath? text = ((line :: after).findSome? modulePathOfLine?).join := by
  have hskip : before.findSome? modulePathOfLine? = none := by
    rw [List.findSome?_eq_none_iff]
    exact fun l hl => modulePathOfLine?_eq_none (hbefore l hl)
  rw [modulePath?, Text.lines_unifyNewlines, hlines, List.findSome?_append, hskip, Option.none_or]

namespace FileTree

variable {t : FileTree} {cwd : List String} {file : Path} {text : String}

theorem readModulePath_of_read (h : t.read cwd file = .ok (Text.encodeUtf8 text)) :
    t.readModulePath cwd file = .ok (modulePath? text) := by
  have hnul : ¬ file.hasNul := by
    intro hnul
    rw [read, locate, if_pos hnul] at h
    cases h
  rw [readModulePath, if_neg hnul, h]
  dsimp only
  rw [Text.decodeUtf8?_encodeUtf8]

/-- The module path is that of the first directive, unless a tab follows its word: then the lines
behind it decide. Without a line that declares a module there is none. -/
theorem module_path_of_file (h : t.read cwd file = .ok (Text.encodeUtf8 text)) :
    (∀ (before after : List (List Char)) (d : ModuleDirective),
      Text.lines text.toList = before ++ d.line :: after → (∀ l ∈ before, ¬ DeclaresModule l) →
      (d.gap.head? = some ' ' ∧ t.readModulePath cwd file = .ok (some (.ofList d.path))) ∨
      (d.gap.head? = some '\t' ∧ t.readModulePath cwd file =
        .ok (modulePath? (.ofList (after.flatMap (· ++ ['\n'])))))) ∧
    ((∀ l ∈ Text.lines text.toList, ¬ DeclaresModule l) →
      t.readModulePath cwd file = .ok none) := by
  rw [readModulePath_of_read h]
  constructor
  · intro before after d hlines hbefore
    have hpath := modulePath?_of_lines hlines hbefore
    obtain ⟨c, gap, hgap⟩ := List.exists_cons_of_ne_nil d.gap_ne_nil
    rcases d.gap_gap c (by simp [hgap]) with rfl | rfl
    · have hhead : d.gap.head? = some ' ' := by simp [hgap]
      refine .inl ⟨hhead, ?_⟩
      rw [hpath, List.findSome?_cons, d.modulePathOfLine?_of_space hhead]
      rfl
    · have hhead : d.gap.head? = some '\t' := by simp [hgap]
      -- written out again, the lines behind the directive are the same lines
      have hafter : Text.lines (after.flatMap (· ++ ['\n'])) = after := by
        apply Text.lines_flatMap_lf
        intro l hl c hc
        have hmem : l ∈ Text.lines text.toList := by
          rw [hlines]
          simp [hl]
        exact (Text.mem_lines hmem hc).2
      refine .inr ⟨hhead, ?_⟩
      rw [hpath, List.findSome?_cons, d.modulePathOfLine?_of_tab hhead, modulePath?,
        Text.lines_unifyNewlines, String.toList_ofList, hafter]
  · intro hnone
    have hskip : (Text.lines text.toList).findSome? modulePathOfLine? = none := by
      rw [List.findSome?_eq_none_iff]
      exact fun l hl => modulePathOfLine?_eq_none (hnone l hl)
    rw [modulePath?, Text.lines_unifyNewlines, hskip]
    rfl

theorem moduleTree_read (text : String) :
    (moduleTree text).read [] ⟨.root, ["go.mod"]⟩ = .ok (Text.encodeUtf8 text) := by
  rw [read, moduleTree_locate]

/-- A directive in quotes behind a comment and another directive, and a second one behind it. -/
theorem module_path_of_file_quoted :
    (moduleTree "// tool\ngo 1.21\n\tmodule  \"a.org/t\"\t// v2\nmodule b\n").readModulePath []
      ⟨.root, ["go.mod"]⟩ = .ok (some "a.org/t") := by
  let d : ModuleDirective := {
    indent := ['\t']
    gap := [' ', ' ']
    quoting := .double
    path := "a.org/t".toList
    trail := ['\t']
    comment := some " v2".toList
    indent_gap := by simp [IsGap]
    gap_gap := by simp [IsGap]
    gap_ne_nil := by simp
    path_ne_nil := by decide
    path_plain := ModuleDirective.plain_of_all (by decide)
    path_slashes := by unfold SingleSlashes; decide
    trail_gap := by simp [IsGap]
    trail_ne_nil := by simp }
  have hlines : Text.lines "// tool\ngo 1.21\n\tmodule  \"a.org/t\"\t// v2\nmodule b\n".toList =
      ["// tool".toList, "go 1.21".toList] ++ d.line :: ["module b".toList] := by decide
  have hbefore : ∀ l ∈ ["// tool".toList, "go 1.21".toList], ¬ DeclaresModule l := by
    unfold DeclaresModule
    decide
  rcases (module_path_of_file (moduleTree_read _)).1 _ _ d hlines hbefore with
    ⟨-, hpath⟩ | ⟨htab, -⟩
  · exact hpath
  · cases htab

/-- With a tab behind the word, the directive is not seen. -/
theorem tabbed_directive_passed_over :
    (moduleTree "module\ta.org/t\n").readModulePath [] ⟨.root, ["go.mod"]⟩ = .ok none := by
  rw [readModulePath_of_read (moduleTree_read _)]
  have hpath : modulePath? "module\ta.org/t\n" = none := by decide +kernel
  rw [hpath]

end FileTree

end ImportGroups
