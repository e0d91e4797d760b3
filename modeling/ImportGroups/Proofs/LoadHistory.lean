import ImportGroups.ConfigFile
import ImportGroups.Proofs.Utf8
import ImportGroups.Proofs.Yaml.Leftovers

/-!
Loading one configuration after another.

All loads of a process share one reader of YAML. A load gives what it would give alone if every text
before it was loaded, or was given up without a value half built, and none of them asked for a
version. Where one did, the version is all that is left of them, and the default one makes no
difference to a text that does not ask for another.
-/

namespace ImportGroups

open Yaml (Reader Value Known)

/-- A load of a configuration, with the files as they are at its time. -/
structure Call where
  tree : FileTree
  cwd : List String
  explicit : Option Path

namespace Call

def load (c : Call) (reader : Reader) : ConfigResult Config × Reader :=
  c.tree.loadConfig c.cwd reader c.explicit

/-- The file that is read, and its text with line feeds as line ends, if it has come to that. -/
def source? (c : Call) : Option (Path × List Char) :=
  match c.tree.configPath? c.cwd c.explicit with
  | .ok (some p) =>
    match c.tree.read c.cwd p with
    | .ok bytes => (Text.decodeUtf8? bytes).map fun text => (p, Text.unifyNewlines text.toList)
    | .error _ => none
  | _ => none

variable {c : Call} {p : Path} {text : List Char}

theorem source?_eq {bytes : Text.Bytes} {decoded : String}
    (hpath : c.tree.configPath? c.cwd c.explicit = .ok (some p))
    (hread : c.tree.read c.cwd p = .ok bytes) (hdecode : Text.decodeUtf8? bytes = some decoded) :
    c.source? = some (p, Text.unifyNewlines decoded.toList) := by
  simp only [source?, hpath, hread, hdecode, Option.map_some]

theorem load_of_source (h : c.source? = some (p, text)) (reader : Reader) :
    c.load reader =
      (mappingOf p (reader.load text).1 >>= Config.ofMapping, (reader.load text).2) := by
  unfold source? at h
  split at h
  · rename_i q hpath
    split at h
    · rename_i bytes hread
      obtain ⟨decoded, hdecode, hpair⟩ := Option.map_eq_some_iff.mp h
      cases hpair
      simp only [load, FileTree.loadConfig, hpath, FileTree.readConfig, hread, hdecode]
    · cases h
  · cases h

theorem load_of_no_source (h : c.source? = none) :
    ∃ outcome, ∀ reader, c.load reader = (outcome, reader) := by
  unfold source? at h
  unfold load FileTree.loadConfig
  split at h
  · rename_i q hpath
    simp only [hpath, FileTree.readConfig]
    split at h
    · rename_i bytes hread
      simp only [hread, Option.map_eq_none_iff.mp h]
      exact ⟨_, fun _ => rfl⟩
    · rename_i e hread
      simp only [hread]
      exact ⟨_, fun _ => rfl⟩
  · rename_i hpath
    cases hp : c.tree.configPath? c.cwd c.explicit with
    | error e => exact ⟨_, fun _ => rfl⟩
    | ok p? =>
      cases p? with
      | none => exact ⟨_, fun _ => rfl⟩
      | some p => exact absurd hp (hpath p)

def AsksVersion (c : Call) : Prop := ∃ p text, c.source? = some (p, text) ∧ Yaml.AsksVersion text

def Settles (c : Call) (reader : Reader) : Prop :=
  ∀ p text, c.source? = some (p, text) → reader.Settles text

theorem load_settled {v : Option Yaml.Version} (hv : Known v) (h : c.Settles (.bare v)) :
    ∃ w, (c.load (.bare v)).2 = .bare w ∧ Known w ∧ (¬ c.AsksVersion → w = v) := by
  cases hsource : c.source? with
  | none =>
    obtain ⟨outcome, hload⟩ := load_of_no_source hsource
    rw [hload]
    exact ⟨v, rfl, hv, fun _ => rfl⟩
  | some x =>
    obtain ⟨p, text⟩ := x
    obtain ⟨w, hreader, hw, hsame⟩ := Reader.load_settled hv (h p text hsource)
    rw [load_of_source hsource]
    exact ⟨w, hreader, hw, fun hasks => hsame fun htext => hasks ⟨p, text, hsource, htext⟩⟩

theorem load_default (h : ¬ c.AsksVersion) :
    (c.load (.bare (some .v12))).1 = (c.load (.bare none)).1 := by
  cases hsource : c.source? with
  | none =>
    obtain ⟨outcome, hload⟩ := load_of_no_source hsource
    rw [hload, hload]
  | some x =>
    obtain ⟨p, text⟩ := x
    rw [load_of_source hsource, load_of_source hsource,
      Reader.load_default fun htext => h ⟨p, text, hsource, htext⟩]

end Call

def readerAfter (reader : Reader) : List Call → Reader
  | [] => reader
  | c :: rest => readerAfter (c.load reader).2 rest

def Settled (reader : Reader) : List Call → Prop
  | [] => True
  | c :: rest => c.Settles reader ∧ Settled (c.load reader).2 rest

theorem readerAfter_settled {v : Option Yaml.Version} (hv : Known v) {calls : List Call}
    (h : Settled (.bare v) calls) : ∃ w, readerAfter (.bare v) calls = .bare w ∧ Known w := by
  induction calls generalizing v with
  | nil => exact ⟨v, rfl, hv⟩
  | cons c rest ih =>
    obtain ⟨hc, hrest⟩ := h
    obtain ⟨w, hreader, hw, -⟩ := Call.load_settled hv hc
    rw [hreader] at hrest
    rw [readerAfter, hreader]
    exact ih hw hrest

theorem readerAfter_unasked {calls : List Call}
    (h : ∀ c ∈ calls, c.Settles {} ∧ ¬ c.AsksVersion) : readerAfter {} calls = {} := by
  induction calls with
  | nil => rfl
  | cons c rest ih =>
    obtain ⟨⟨hsettles, hasks⟩, hrest⟩ := List.forall_mem_cons.mp h
    obtain ⟨w, hreader, -, hw⟩ := Call.load_settled (.inl rfl) hsettles
    rw [hw hasks] at hreader
    rw [readerAfter]
    exact (congrArg (readerAfter · rest) hreader).trans (ih hrest)

/-- A load after others gives what it would give alone, if those leave nothing behind. Loads that
settle leave nothing but a version, and of that nothing is seen in a text that asks for none unless it
is 1.1. -/
theorem load_after_history (before : List Call) (c : Call) :
    ((∀ b ∈ before, b.Settles {} ∧ ¬ b.AsksVersion) →
      (c.load (readerAfter {} before)).1 = (c.load {}).1) ∧
    (Settled {} before →
      ∃ v, readerAfter {} before = { version? := v } ∧ (v = none ∨ v = some .v11 ∨ v = some .v12) ∧
        (v ≠ some .v11 → ¬ c.AsksVersion → (c.load (readerAfter {} before)).1 = (c.load {}).1)) := by
  refine ⟨fun h => by rw [readerAfter_unasked h], fun h => ?_⟩
  obtain ⟨v, hreader, hv⟩ := readerAfter_settled (.inl rfl) h
  refine ⟨v, hreader, hv, fun hne hasks => ?_⟩
  rcases hv with rfl | rfl | rfl
  · exact congrArg (fun reader => (c.load reader).1) hreader
  · exact absurd rfl hne
  · exact (congrArg (fun reader => (c.load reader).1) hreader).trans (Call.load_default hasks)

def textCall (text : String) : Call where
  tree := { entries := [("c", .file (Text.encodeUtf8 text))] }
  cwd := []
  explicit := some ⟨.relative, ["c"]⟩

theorem textCall_source (text : String) :
    (textCall text).source? = some (⟨.relative, ["c"]⟩, Text.unifyNewlines text.toList) := by
  have hlocate : (textCall text).tree.locate [] ⟨.relative, ["c"]⟩ =
      .ok (["c"], .file (Text.encodeUtf8 text)) := by
    rw [FileTree.locate, if_neg (by decide), if_neg (by decide), FileTree.locateFrom,
      if_neg (by decide), if_neg (by decide), if_neg (by decide)]
    rfl
  have hpath : (textCall text).tree.configPath? [] (some ⟨.relative, ["c"]⟩) =
      .ok (some ⟨.relative, ["c"]⟩) := by
    rw [FileTree.configPath?, FileTree.isFile, FileTree.find?, hlocate]
    rfl
  have hread : (textCall text).tree.read [] ⟨.relative, ["c"]⟩ = .ok (Text.encodeUtf8 text) := by
    rw [FileTree.read, hlocate]
  exact Call.source?_eq hpath hread (Text.decodeUtf8?_encodeUtf8 text)

theorem textCall_load (text : String) (reader : Reader) :
    (textCall text).load reader =
      (mappingOf ⟨.relative, ["c"]⟩ (reader.load (Text.unifyNewlines text.toList)).1 >>=
        Config.ofMapping, (reader.load (Text.unifyNewlines text.toList)).2) :=
  Call.load_of_source (textCall_source text) reader

theorem settles_of_isOk {reader : Reader} {text : List Char} (h : (reader.load text).1.isOk) :
    reader.Settles text := by
  cases hload : (reader.load text).1 with
  | ok value => exact .loaded hload
  | error e => simp [hload, Except.isOk, Except.toBool] at h

theorem textCall_settles {text : String}
    (h : ({} : Reader).Settles (Text.unifyNewlines text.toList)) : (textCall text).Settles {} := by
  intro p text' hsource
  rw [textCall_source] at hsource
  cases hsource
  exact h

theorem textCall_unasked {text : String} (h : '%' ∉ Text.unifyNewlines text.toList) :
    ¬ (textCall text).AsksVersion := by
  rintro ⟨p, text', hsource, before, rest, htext, -⟩
  rw [textCall_source] at hsource
  cases hsource
  rw [htext] at h
  exact h (List.mem_append_left _ (List.mem_append_right _ (by decide)))

/-- A text that ends too early, one with a key twice and a good one leave nothing behind, and a text by
the default version leaves that. -/
theorem load_after_history_texts :
    ((textCall "root: *x\n").load (readerAfter {} [textCall "vendor: &x q\nroot: [\n",
      textCall "a: 1\na: 2\n", textCall "vendor: v\n"])).1 = ((textCall "root: *x\n").load {}).1 ∧
    ((textCall "gitignore: no\n").load (readerAfter {} [textCall "%YAML 1.2\n---\n[]\n"])).1 =
      ((textCall "gitignore: no\n").load {}).1 := by
  constructor
  · refine (load_after_history _ _).1 ?_
    have hopen : ({} : Reader).Settles "vendor: &x q\nroot: [\n".toList :=
      .unread (e := .invalid) (by decide +kernel)
    have htwice : ({} : Reader).Settles "a: 1\na: 2\n".toList :=
      .unbuilt (x := (some 0, .v12)) (by decide +kernel) (by decide +kernel)
    have hgood : ({} : Reader).Settles "vendor: v\n".toList := settles_of_isOk (by decide +kernel)
    intro b hb
    simp only [List.mem_cons, List.not_mem_nil, or_false] at hb
    rcases hb with rfl | rfl | rfl
    · exact ⟨textCall_settles hopen, textCall_unasked (by decide)⟩
    · exact ⟨textCall_settles htwice, textCall_unasked (by decide)⟩
    · exact ⟨textCall_settles hgood, textCall_unasked (by decide)⟩
  · have hsettles : ({} : Reader).Settles "%YAML 1.2\n---\n[]\n".toList :=
      settles_of_isOk (by decide +kernel)
    obtain ⟨v, hreader, -, hsame⟩ := (load_after_history [textCall "%YAML 1.2\n---\n[]\n"]
      (textCall "gitignore: no\n")).2 ⟨textCall_settles hsettles, trivial⟩
    refine hsame ?_ (textCall_unasked (by decide))
    have hversion : (readerAfter {} [textCall "%YAML 1.2\n---\n[]\n"]).version? = some .v12 := by
      rw [readerAfter, readerAfter, textCall_load]
      decide +kernel
    rw [hreader] at hversion
    rw [show v = some .v12 from hversion]
    decide

/-- A version outlives the text that asks for it, and a mapping whose pairs are still to be built
outlives the text that cannot be built. -/
theorem earlier_load_matters :
    ((textCall "gitignore: yes\n").load {}).1 = refuse .gitignoreNotBool ∧
    ((textCall "gitignore: yes\n").load ((textCall "%YAML 1.1\n---\nvendor: v\n").load {}).2).1 =
      .ok {} ∧
    ((textCall "root: r\n").load {}).1 = .ok { root := some "r" } ∧
    ((textCall "root: r\n").load ((textCall "a: {x: 1, x: 2}\na: 2\n").load {}).2).1 =
      refuse (.invalidYaml ⟨.relative, ["c"]⟩) := by
  simp only [textCall_load]
  decide +kernel

end ImportGroups
