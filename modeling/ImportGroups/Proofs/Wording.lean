import ImportGroups.Proofs.FirstViolation
import ImportGroups.Proofs.Independence
import ImportGroups.Proofs.Reports
import ImportGroups.Proofs.Walk

/-!
Messages as names of violations.

Every kind of violation has a message of its own, and the numbers and categories in it can be read
back. Only a mixed group without categories is told without its number, and the validation never
gives one. So the path, the kind and the message in a report are all that a check has found.
-/

namespace ImportGroups

theorem Category.name_inj {c d : Category} (h : c.name = d.name) : c = d := by
  revert h
  cases c <;> cases d <;> decide

theorem Category.comma_notMem_name (c : Category) : ',' ∉ c.name.toList := by
  cases c <;> decide

theorem CategorySet.toList_inj {s t : CategorySet} (h : s.toList = t.toList) : s = t := by
  apply CategorySet.ext_contains
  intro c
  rw [← CategorySet.mem_toList, h, CategorySet.mem_toList]

def categoryList (cs : List Category) : String := ", ".intercalate (cs.map Category.name)

theorem categoryList_inj {cs ds : List Category} (hcs : cs ≠ []) (hds : ds ≠ [])
    (h : categoryList cs = categoryList ds) : cs = ds := by
  have hcomma : ∀ es : List Category, ∀ x ∈ (es.map Category.name).map String.toList, ',' ∉ x := by
    intro es x hx
    obtain ⟨name, hname, rfl⟩ := List.mem_map.mp hx
    obtain ⟨c, -, rfl⟩ := List.mem_map.mp hname
    exact c.comma_notMem_name
  have hlists := congrArg String.toList h
  rw [categoryList, categoryList, String.toList_intercalate, String.toList_intercalate] at hlists
  have hnames := intercalate_inj (by simpa using hcs) (by simpa using hds) (hcomma cs) (hcomma ds)
    hlists
  apply List.map_injective_iff.mpr (fun c d => Category.name_inj)
  apply List.map_injective_iff.mpr (fun s t => String.toList_inj.mp)
  exact hnames

namespace Violation

def NamesCategories : Violation → Prop
  | invalidGrouping _ s => ∃ c, s.contains c = true
  | _ => True

theorem message_invalidGrouping {i : Int} {s : CategorySet} (h : s.toList ≠ []) :
    (invalidGrouping i s).message = "invalid grouping: group " ++ (toString (i + 1) ++ (" mixes " ++
      (categoryList s.toList ++ " imports"))) := by
  obtain ⟨c, cs, hcs⟩ := List.exists_cons_of_ne_nil h
  unfold message
  dsimp only
  rw [hcs]
  simp only [categoryList, String.append_assoc]

theorem message_tooManyGroups (count : Int) : (tooManyGroups count).message =
    "found " ++ (toString count ++ " groups: too many import groups") := by
  rw [← String.append_assoc]
  rfl

theorem message_duplicateGroupType (c : Category) (i j : Int) :
    (duplicateGroupType c i j).message = "multiple import groups of the same type: groups " ++
      (toString (i + 1) ++ (" and " ++ (toString (j + 1) ++ (" are both " ++ c.name)))) := by
  simp only [← String.append_assoc]
  rfl

/-- The first letter of a message, which is different for every kind. -/
def initial : Violation → Char
  | tooManyGroups _ => 'f'
  | invalidGrouping .. => 'i'
  | duplicateGroupType .. => 'm'

theorem NamesCategories.toList_ne_nil {i : Int} {s : CategorySet}
    (h : (invalidGrouping i s).NamesCategories) : s.toList ≠ [] := by
  obtain ⟨c, hc⟩ := h
  exact List.ne_nil_of_mem (CategorySet.mem_toList.mpr hc)

theorem head?_message {v : Violation} (h : v.NamesCategories) :
    v.message.toList.head? = some v.initial := by
  cases v with
  | tooManyGroups count =>
    rw [message_tooManyGroups, String.toList_append]
    rfl
  | invalidGrouping i s =>
    rw [message_invalidGrouping h.toList_ne_nil, String.toList_append]
    rfl
  | duplicateGroupType c i j =>
    rw [message_duplicateGroupType, String.toList_append]
    rfl

theorem head?_append_of_blank {a : String} (h : a.toList.head? = some ' ') (b : String) :
    (a ++ b).toList.head? = some ' ' := by
  rw [String.toList_append, List.head?_append, h]
  rfl

theorem message_inj {v w : Violation} (hv : v.NamesCategories) (hw : w.NamesCategories)
    (h : v.message = w.message) : v = w := by
  have hinitial : v.initial = w.initial := by
    have hhead := head?_message hv
    rw [h, head?_message hw] at hhead
    exact (Option.some.inj hhead).symm
  cases v with
  | tooManyGroups count =>
    cases w with
    | tooManyGroups count' =>
      rw [message_tooManyGroups, message_tooManyGroups, String.append_right_inj] at h
      obtain ⟨rfl, -⟩ := toString_append_inj rfl rfl h
      rfl
    | invalidGrouping _ _ | duplicateGroupType _ _ _ => simp [initial] at hinitial
  | invalidGrouping i s =>
    cases w with
    | invalidGrouping i' s' =>
      rw [message_invalidGrouping hv.toList_ne_nil, message_invalidGrouping hw.toList_ne_nil,
        String.append_right_inj] at h
      obtain ⟨hi, hrest⟩ := toString_append_inj (head?_append_of_blank rfl _)
        (head?_append_of_blank rfl _) h
      have hlist := (String.append_left_inj _).mp ((String.append_right_inj _).mp hrest)
      have hs := categoryList_inj hv.toList_ne_nil hw.toList_ne_nil hlist
      obtain rfl : i = i' := by omega
      rw [CategorySet.toList_inj hs]
    | tooManyGroups _ | duplicateGroupType _ _ _ => simp [initial] at hinitial
  | duplicateGroupType c i j =>
    cases w with
    | duplicateGroupType c' i' j' =>
      rw [message_duplicateGroupType, message_duplicateGroupType, String.append_right_inj] at h
      obtain ⟨hi, hrest⟩ := toString_append_inj (head?_append_of_blank rfl _)
        (head?_append_of_blank rfl _) h
      obtain ⟨hj, hname⟩ := toString_append_inj (head?_append_of_blank rfl _)
        (head?_append_of_blank rfl _) ((String.append_right_inj _).mp hrest)
      obtain rfl : c = c' := Category.name_inj ((String.append_right_inj _).mp hname)
      obtain rfl : i = i' := by omega
      obtain rfl : j = j' := by omega
      rfl
    | tooManyGroups _ | invalidGrouping _ _ => simp [initial] at hinitial

end Violation

theorem namesCategories_of_validate {root : String} {gs : List Group} {v : Violation}
    (h : validate root gs = some v) : v.NamesCategories := by
  rcases validate_eq_some_iff.mp h with ⟨-, rfl⟩ | ⟨-, k, s, rfl, hmixed⟩ | ⟨-, -, c, i, j, rfl, -⟩
  · trivial
  · have hlength := hmixed.categories.1
    obtain ⟨c, cs, hcs⟩ := List.exists_cons_of_length_pos (by omega : 0 < s.toList.length)
    exact ⟨c, CategorySet.mem_toList.mp (hcs ▸ List.mem_cons_self)⟩
  · trivial

namespace Path

def IsNormal (p : Path) : Prop := ∀ name ∈ p.parts, IsName name

theorem isNormal_ofString (s : String) : (ofString s).IsNormal := by
  intro name hname
  obtain ⟨hsegment, hdot⟩ := List.mem_filter.mp hname
  obtain ⟨hpiece, hempty⟩ := List.mem_filter.mp hsegment
  obtain ⟨piece, hmem, rfl⟩ := List.mem_map.mp hpiece
  refine ⟨by simpa using hempty, by simpa using hdot, ?_⟩
  intro hslash
  rw [String.toList_ofList] at hslash
  exact (Text.mem_splitAt hmem hslash).2 rfl

theorem IsNormal.child {p : Path} (h : p.IsNormal) (name : String) : (p.child name).IsNormal := by
  unfold Path.child join
  split_ifs
  · exact isNormal_ofString name
  · intro part hpart
    rcases List.mem_append.mp hpart with hpart | hpart
    · exact h part hpart
    · exact isNormal_ofString name part hpart

/-- The components as they are written: no components are written as a dot, after a slash as
nothing. -/
def written (p : Path) : List String := if p = {} then ["."] else p.parts

theorem toString_eq (p : Path) : p.toString = p.anchor.text ++ "/".intercalate p.written := by
  obtain ⟨anchor, parts⟩ := p
  cases anchor <;> cases parts <;> simp [Path.toString, written, Anchor.text]

theorem IsNormal.written {p : Path} (h : p.IsNormal) :
    ∀ name ∈ p.written, name ≠ "" ∧ '/' ∉ name.toList := by
  intro name hname
  unfold Path.written at hname
  split_ifs at hname
  · rw [List.mem_singleton.mp hname]
    decide
  · exact ⟨(h name hname).1, (h name hname).2.2⟩

theorem intercalate_written_head {p : Path} (h : p.IsNormal) :
    ∀ c ∈ ("/".intercalate p.written).toList.head?, c ≠ '/' := by
  cases hwritten : p.written with
  | nil => simp
  | cons name names =>
    obtain ⟨hne, hslash⟩ := h.written name (by simp [hwritten])
    have hcons : name.toList ≠ [] := by simpa using hne
    obtain ⟨c, cs, hcs⟩ := List.exists_cons_of_ne_nil hcons
    have hc : c ≠ '/' := by
      rintro rfl
      simp [hcs] at hslash
    cases names <;> simp [hcs, hc]

theorem intercalate_slash_inj {xs ys : List String} (hxs : ∀ x ∈ xs, x ≠ "" ∧ '/' ∉ x.toList)
    (hys : ∀ y ∈ ys, y ≠ "" ∧ '/' ∉ y.toList) (h : "/".intercalate xs = "/".intercalate ys) :
    xs = ys := by
  have hslash : ∀ {zs : List String}, (∀ z ∈ zs, z ≠ "" ∧ '/' ∉ z.toList) →
      ∀ z ∈ zs.map String.toList, '/' ∉ z := by
    intro zs hzs z hz
    obtain ⟨name, hname, rfl⟩ := List.mem_map.mp hz
    exact (hzs name hname).2
  cases xs with
  | nil =>
    cases ys with
    | nil => rfl
    | cons y ys => exact absurd h.symm (intercalate_ne_empty (hys y (by simp)).1)
  | cons x xs =>
    cases ys with
    | nil => exact absurd h (intercalate_ne_empty (hxs x (by simp)).1)
    | cons y ys =>
      have hlists := congrArg String.toList h
      rw [String.toList_intercalate, String.toList_intercalate] at hlists
      have hnames := intercalate_inj (by simp) (by simp) (hslash hxs) (hslash hys) hlists
      exact List.map_injective_iff.mpr (fun s t => String.toList_inj.mp) hnames

theorem anchor_text_inj {a b : Anchor} (h : a.text = b.text) : a = b := by
  revert h
  cases a <;> cases b <;> decide

theorem written_inj {p q : Path} (hp : p.IsNormal) (hq : q.IsNormal) (hanchor : p.anchor = q.anchor)
    (h : p.written = q.written) : p = q := by
  have hdot : ∀ {r : Path}, r.IsNormal → r.parts ≠ ["."] := by
    intro r hr heq
    exact (hr "." (by simp [heq])).2.1 rfl
  unfold Path.written at h
  split_ifs at h with hpe hqe hqe
  · rw [hpe, hqe]
  · exact absurd h.symm (hdot hq)
  · exact absurd h (hdot hp)
  · cases p
    cases q
    simp_all

theorem toString_inj {p q : Path} (hp : p.IsNormal) (hq : q.IsNormal)
    (h : p.toString = q.toString) : p = q := by
  have hslashes : ∀ a : Anchor, ∀ c ∈ a.text.toList, c = '/' := by
    intro a
    cases a <;> simp [Anchor.text]
  have hlists := congrArg String.toList h
  rw [toString_eq, toString_eq, String.toList_append, String.toList_append] at hlists
  obtain ⟨htext, hnames⟩ := append_inj_of_class (hslashes p.anchor) (hslashes q.anchor)
    (intercalate_written_head hp) (intercalate_written_head hq) hlists
  apply written_inj hp hq (anchor_text_inj (String.toList_inj.mp htext))
  exact intercalate_slash_inj hp.written hq.written (String.toList_inj.mp hnames)

end Path

/-- All that is wrong with the file is in the verdict's entry: it has an error or a violation and not
both, the violation names its categories, and the path has proper names. -/
structure Verdict.IsFinding (v : Verdict) : Prop where
  path : v.path.IsNormal
  single : v.violation = none ∨ v.error = none
  names : ∀ w, v.violation = some w → w.NamesCategories

theorem Verdict.IsFinding.violation_of_error {v : Verdict} {e : String} (h : v.IsFinding)
    (he : v.error = some e) : v.violation = none := by
  apply h.single.resolve_right
  simp [he]

theorem Verdict.entry_inj {v w : Verdict} (hv : v.IsFinding) (hw : w.IsFinding) (hvok : v.ok = false)
    (hwok : w.ok = false) (h : v.entry = w.entry) : v = w := by
  have hpath : v.path = w.path := Path.toString_inj hv.path hw.path (congrArg FailureEntry.path h)
  have hsame : v.violation = w.violation ∧ v.error = w.error := by
    rcases not_ok_cases hvok with ⟨e, he⟩ | ⟨he, x, hx⟩
    · rcases not_ok_cases hwok with ⟨e', he'⟩ | ⟨he', y, hy⟩
      · rw [entry_of_error he, entry_of_error he'] at h
        obtain rfl : e = e' := congrArg FailureEntry.message h
        exact ⟨(hv.violation_of_error he).trans (hw.violation_of_error he').symm, he.trans he'.symm⟩
      · rw [entry_of_error he, entry_of_violation he' hy] at h
        exact absurd (congrArg FailureEntry.kind h).symm y.kind_ne_error
    · rcases not_ok_cases hwok with ⟨e', he'⟩ | ⟨he', y, hy⟩
      · rw [entry_of_violation he hx, entry_of_error he'] at h
        exact absurd (congrArg FailureEntry.kind h) x.kind_ne_error
      · rw [entry_of_violation he hx, entry_of_violation he' hy] at h
        obtain rfl : x = y :=
          Violation.message_inj (hv.names x hx) (hw.names y hy) (congrArg FailureEntry.message h)
        exact ⟨hx.trans hy.symm, he.trans he'.symm⟩
  obtain ⟨path, violation, error⟩ := v
  obtain ⟨path', violation', error'⟩ := w
  simp only [mk.injEq]
  exact ⟨hpath, hsame⟩

theorem failing_inj {verdicts others : List Verdict} (hverdicts : ∀ v ∈ verdicts, v.IsFinding)
    (hothers : ∀ v ∈ others, v.IsFinding)
    (h : (failing verdicts).map Verdict.entry = (failing others).map Verdict.entry) :
    failing verdicts = failing others := by
  have hfailing : ∀ {vs : List Verdict}, (∀ v ∈ vs, v.IsFinding) →
      ∀ v ∈ failing vs, v.IsFinding ∧ v.ok = false := by
    intro vs hvs v hv
    obtain ⟨hmem, hok⟩ := List.mem_filter.mp hv
    exact ⟨hvs v hmem, by simpa using hok⟩
  have hvs := hfailing hverdicts
  have hws := hfailing hothers
  generalize failing verdicts = vs at h hvs
  generalize failing others = ws at h hws
  induction vs generalizing ws with
  | nil => exact (List.map_eq_nil_iff.mp h.symm).symm
  | cons v vs ih =>
    cases ws with
    | nil => cases h
    | cons w ws =>
      obtain ⟨hentry, hrest⟩ := List.cons.inj h
      obtain ⟨⟨hv, hvok⟩, hvs⟩ := List.forall_mem_cons.mp hvs
      obtain ⟨⟨hw, hwok⟩, hws⟩ := List.forall_mem_cons.mp hws
      rw [Verdict.entry_inj hv hw hvok hwok hentry, ih hvs ws hrest hws]

namespace FileTree

variable {t : FileTree} {cwd : List String} {rules : WalkRules} {config : Config} {root : String}

theorem subVisits_isNormal {w : WalkPlace} {entries : List (String × Node)}
    (hdirs : ∀ e ∈ entries, ∀ w : WalkPlace, w.shown.IsNormal →
      ∀ p ∈ (t.dirVisits rules w e.2).filterMap Visit.file?, p.IsNormal)
    (hw : w.shown.IsNormal) : ∀ p ∈ (t.subVisits rules w entries).filterMap Visit.file?, p.IsNormal := by
  induction entries with
  | nil => simp [subVisits]
  | cons e rest ih =>
    obtain ⟨name, n⟩ := e
    obtain ⟨hfirst, hrest⟩ := List.forall_mem_cons.mp hdirs
    intro p hp
    rw [subVisits, List.filterMap_append] at hp
    rcases List.mem_append.mp hp with hp | hp
    · split_ifs at hp
      · simp at hp
      · exact hfirst (w.enter name) (hw.child name) p hp
    · exact ih hrest p hp

theorem dirVisits_isNormal (n : Node) (w : WalkPlace) (hw : w.shown.IsNormal) :
    ∀ p ∈ (t.dirVisits rules w n).filterMap Visit.file?, p.IsNormal := by
  induction n using Node.entriesInduction generalizing w with
  | file content => simp [dirVisits]
  | link target => simp [dirVisits]
  | dir entries ih =>
    intro p hp
    rw [dirVisits] at hp
    split_ifs at hp
    case neg => cases hp
    rw [List.filterMap_append] at hp
    rcases List.mem_append.mp hp with hp | hp
    · rw [ownVisits_files] at hp
      obtain ⟨e, -, rfl⟩ := List.mem_map.mp hp
      exact hw.child e.1
    · exact subVisits_isNormal ih hw p hp

theorem visits_isNormal {start : Path} {vs : List Visit} (hstart : start.IsNormal)
    (h : t.visits cwd start rules = .ok vs) : ∀ p ∈ vs.filterMap Visit.file?, p.IsNormal := by
  unfold visits at h
  split_ifs at h
  split at h
  · cases h
    simpa [Visit.file?] using hstart
  · cases h
    exact dirVisits_isNormal _ _ hstart
  · cases h
  · cases h
    simp

theorem stepsFrom_isNormal {start : Path} {ss : List Step} (hstart : start.IsNormal)
    (h : t.stepsFrom cwd config start = .ok ss) :
    ∀ v ∈ ss.filterMap (t.stepVerdict? cwd root), v.path.IsNormal := by
  have hpath : ∀ p, (t.verdictOn cwd root p).path = p := by
    intro p
    unfold verdictOn
    cases t.importsOf cwd p <;> rfl
  rcases stepsFrom_ok h with ⟨-, rfl⟩ | ⟨-, vs, hvs, rfl⟩
  · simpa [stepVerdict?, missingStart] using hstart
  · obtain ⟨rules, -, hvisits⟩ := bind_eq_ok_iff.mp hvs
    intro v hv
    obtain ⟨s, hs, hsv⟩ := List.mem_filterMap.mp hv
    obtain ⟨visit, hvisit, rfl⟩ := List.mem_map.mp hs
    obtain ⟨p, hp, rfl⟩ := Option.map_eq_some_iff.mp hsv
    rw [hpath]
    exact visits_isNormal hstart hvisits p (List.mem_filterMap.mpr ⟨visit, hvisit, hp⟩)

theorem steps_isNormal {starts : List Path} {ss : List Step} {f? : Option Fault}
    (hstarts : ∀ start ∈ starts, start.IsNormal) (h : t.steps cwd config starts = (ss, f?)) :
    ∀ v ∈ ss.filterMap (t.stepVerdict? cwd root), v.path.IsNormal := by
  induction starts generalizing ss f? with
  | nil =>
    cases h
    simp
  | cons start rest ih =>
    obtain ⟨hstart, hrest⟩ := List.forall_mem_cons.mp hstarts
    unfold steps at h
    cases hfirst : t.stepsFrom cwd config start with
    | error f =>
      rw [hfirst] at h
      cases h
      simp
    | ok first =>
      rw [hfirst] at h
      cases h
      intro v hv
      rw [List.filterMap_append] at hv
      rcases List.mem_append.mp hv with hv | hv
      · exact stepsFrom_isNormal hstart hfirst v hv
      · exact ih hrest rfl v hv

theorem runCheck_isFinding {paths : List String} {vs : List Verdict}
    (h : t.runCheck cwd root config (paths.map Path.ofString) = .ok vs) :
    ∀ v ∈ vs, v.IsFinding := by
  have hnormal : ∀ start ∈ paths.map Path.ofString, start.IsNormal := by
    intro start hstart
    obtain ⟨s, -, rfl⟩ := List.mem_map.mp hstart
    exact Path.isNormal_ofString s
  intro v hv
  have hsingle := runCheck_violation_or_error h v hv
  unfold runCheck at h
  split at h
  · cases h
  · rename_i ss hss
    cases h
    refine ⟨steps_isNormal hnormal hss v hv, hsingle, ?_⟩
    intro w hw
    obtain ⟨s, -, hs⟩ := List.mem_filterMap.mp hv
    cases s with
    | missing start =>
      cases hs
      cases hw
    | visit visit =>
      obtain ⟨p, -, rfl⟩ := Option.map_eq_some_iff.mp hs
      unfold verdictOn at hw
      cases himports : t.importsOf cwd p with
      | error e =>
        rw [himports] at hw
        cases hw
      | ok records =>
        rw [himports] at hw
        exact namesCategories_of_validate hw

end FileTree

/-- A violation is known from its message, unless it is a mixed group without categories, which the
validation never gives. So two runs with the same entries in their reports have the same failing
verdicts. -/
theorem message_identifies_violation :
    (∀ v w : Violation, v.NamesCategories → w.NamesCategories → v.message = w.message → v = w) ∧
    (∀ (root : String) (gs : List Group) (v : Violation),
      validate root gs = some v → v.NamesCategories) ∧
    ∀ (t t' : FileTree) (cwd cwd' : List String) (root root' : String) (config config' : Config)
      (paths paths' : List String) (vs vs' : List Verdict),
      t.runCheck cwd root config (paths.map Path.ofString) = .ok vs →
      t'.runCheck cwd' root' config' (paths'.map Path.ofString) = .ok vs' →
      (Report.ofVerdicts root vs).failures = (Report.ofVerdicts root' vs').failures →
      failing vs = failing vs' := by
  refine ⟨fun v w => Violation.message_inj, fun root gs v => namesCategories_of_validate, ?_⟩
  intro t t' cwd cwd' root root' config config' paths paths' vs vs' hvs hvs' h
  rw [failures_ofVerdicts, failures_ofVerdicts] at h
  exact failing_inj (FileTree.runCheck_isFinding hvs) (FileTree.runCheck_isFinding hvs') h

/-- Two mixtures of the same group have different messages. -/
theorem message_identifies_violation_mixtures :
    (Violation.invalidGrouping 1 { external := true, stdlib := true }).message ≠
      (Violation.invalidGrouping 1 { internal := true, stdlib := true }).message := by
  intro h
  obtain ⟨hinj, -, -⟩ := message_identifies_violation
  have hsame := hinj (.invalidGrouping 1 { external := true, stdlib := true })
    (.invalidGrouping 1 { internal := true, stdlib := true }) ⟨.stdlib, rfl⟩ ⟨.stdlib, rfl⟩ h
  cases hsame

example : (Violation.invalidGrouping 0 {}).message = (Violation.invalidGrouping 1 {}).message := rfl

end ImportGroups
