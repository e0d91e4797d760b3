import ImportGroups.Proofs.RootLookup
import ImportGroups.Proofs.Independence
import Mathlib.Data.List.Nodup
import Mathlib.Data.List.Perm.Subperm

/-!
Where links lead, and the root package below a linked GOPATH.

The system follows links one after the other and counts them. The resolver follows the target of a
link as a path of its own and notes what came out. Both come to the same place wherever the system
comes to one, since a link that is being followed cannot be met again: it would take fewer links to
follow it then.

So the place of a GOPATH entry does not depend on the links in its path or in that of the working
directory. The sources below it are another matter: they are looked for under the name `src`, and
nothing lies there if that is a link.
-/

namespace ImportGroups

namespace Node

def hasEntryNames : Node → Bool
  | file _ => true
  | link _ => true
  | dir entries => go entries
where
  go : List (String × Node) → Bool
    | [] => true
    | (name, n) :: rest => decide (FileTree.IsEntryName name) && n.hasEntryNames && go rest

theorem hasEntryNames_lookup {entries : List (String × Node)} {name : String} {n : Node}
    (h : hasEntryNames.go entries = true) (hn : entries.lookup name = some n) :
    FileTree.IsEntryName name ∧ n.hasEntryNames = true := by
  induction entries with
  | nil => cases hn
  | cons entry entries ih =>
    obtain ⟨other, m⟩ := entry
    rw [hasEntryNames.go, Bool.and_eq_true, Bool.and_eq_true, decide_eq_true_eq] at h
    rw [List.lookup_cons] at hn
    split at hn
    · rename_i heq
      cases hn
      rw [eq_of_beq heq]
      exact h.1
    · exact ih h.2 hn

theorem isEntryName_of_nodeAt {n m : Node} {place : List String} (h : n.hasEntryNames = true)
    (hm : n.nodeAt place = some m) : ∀ name ∈ place, FileTree.IsEntryName name := by
  induction place generalizing n with
  | nil => exact fun _ hname => absurd hname List.not_mem_nil
  | cons name place ih =>
    cases n with
    | file content => cases hm
    | link target => cases hm
    | dir entries =>
      rw [nodeAt] at hm
      split at hm
      · rename_i inner hlookup
        obtain ⟨hname, hinner⟩ := hasEntryNames_lookup h hlookup
        exact List.forall_mem_cons.mpr ⟨hname, ih hinner hm⟩
      · cases hm

def linkPlaces : Node → List (List String)
  | file _ => []
  | link _ => [[]]
  | dir entries => go entries
where
  go : List (String × Node) → List (List String)
    | [] => []
    | (name, n) :: rest => n.linkPlaces.map (name :: ·) ++ go rest

theorem length_linkPlaces (n : Node) : n.linkPlaces.length = n.linkCount := by
  induction n using entriesInduction with
  | file content => rfl
  | link target => rfl
  | dir entries ih =>
    rw [linkPlaces, linkCount]
    induction entries with
    | nil => rfl
    | cons entry entries ih' =>
      obtain ⟨name, n⟩ := entry
      obtain ⟨hn, hrest⟩ := List.forall_mem_cons.mp ih
      rw [linkPlaces.go, linkCount.go, List.length_append, List.length_map, hn, ih' hrest]

theorem mem_linkPlaces_lookup {entries : List (String × Node)} {name : String} {n : Node}
    {place : List String} (hn : entries.lookup name = some n) (h : place ∈ n.linkPlaces) :
    name :: place ∈ linkPlaces.go entries := by
  induction entries with
  | nil => cases hn
  | cons entry entries ih =>
    obtain ⟨other, m⟩ := entry
    rw [linkPlaces.go]
    rw [List.lookup_cons] at hn
    split at hn
    · rename_i heq
      cases hn
      rw [eq_of_beq heq]
      exact List.mem_append_left _ (List.mem_map_of_mem h)
    · exact List.mem_append_right _ (ih hn)

theorem mem_linkPlaces {n : Node} {place : List String} {target : String}
    (h : n.nodeAt place = some (.link target)) : place ∈ n.linkPlaces := by
  induction place generalizing n with
  | nil =>
    cases h
    exact List.mem_singleton_self _
  | cons name place ih =>
    cases n with
    | file content => cases h
    | link other => cases h
    | dir entries =>
      rw [nodeAt] at h
      split at h
      · rename_i inner hlookup
        exact mem_linkPlaces_lookup hlookup (ih h)
      · cases h

end Node

namespace FileTree

variable {t : FileTree} {cwd here mid place : List String} {rest names : List String}

def IsLink (t : FileTree) (place : List String) : Prop :=
  ∃ target, t.nodeAt place = some (.link target)

theorem length_le_linkCount {places : List (List String)} (hnodup : places.Nodup)
    (h : ∀ place ∈ places, t.IsLink place) : places.length ≤ t.root.linkCount := by
  rw [← Node.length_linkPlaces]
  refine (hnodup.subperm fun place hplace => ?_).length_le
  obtain ⟨target, htarget⟩ := h place hplace
  exact Node.mem_linkPlaces htarget

def Solid (t : FileTree) (place : List String) : Prop :=
  ∃ n, t.nodeAt place = some n ∧ ∀ target, n ≠ .link target

theorem solid_root (t : FileTree) : t.Solid [] := ⟨_, rfl, by simp [root]⟩

theorem solid_of_below {more : List String} {n : Node} (h : t.nodeAt (place ++ more) = some n)
    (hmore : more ≠ []) : t.Solid place := by
  obtain ⟨name, more, rfl⟩ := List.exists_cons_of_ne_nil hmore
  rw [nodeAt_append] at h
  obtain ⟨m, hm, hn⟩ := Option.bind_eq_some_iff.mp h
  refine ⟨m, hm, ?_⟩
  rintro target rfl
  cases hn

theorem Solid.dropLast (h : t.Solid place) : t.Solid place.dropLast := by
  rcases List.eq_nil_or_concat place with rfl | ⟨init, last, rfl⟩
  · exact h
  · obtain ⟨n, hn, -⟩ := h
    rw [List.concat_eq_append] at hn ⊢
    rw [List.dropLast_concat]
    exact solid_of_below hn (List.cons_ne_nil _ _)

theorem Solid.not_isLink (h : t.Solid place) : ¬ t.IsLink place := by
  rintro ⟨target, hlink⟩
  obtain ⟨n, hn, hnot⟩ := h
  exact hnot target (Option.some.inj (hn.symm.trans hlink))

/-- The names lead from the directory `here` to the place, and `n` links are followed on the way. -/
inductive Leads (t : FileTree) : List String → List String → List String → Nat → Prop where
  | done (here : List String) : Leads t here [] here 0
  | skip {here rest place : List String} {name : String} {n : Nat} (hname : name = "" ∨ name = ".")
      (hrest : Leads t here rest place n) : Leads t here (name :: rest) place n
  | up {here rest place : List String} {n : Nat} (hrest : Leads t here.dropLast rest place n) :
      Leads t here (".." :: rest) place n
  | enter {here rest place : List String} {name : String} {n : Nat} (hname : IsEntryName name)
      (hnode : t.Solid (here ++ [name])) (hrest : Leads t (here ++ [name]) rest place n) :
      Leads t here (name :: rest) place n
  | follow {here rest mid place : List String} {name target : String} {j n : Nat}
      (hname : IsEntryName name) (hnode : t.nodeAt (here ++ [name]) = some (.link target))
      (htarget : Leads t (linkStart here target) (namesIn target) mid j)
      (hrest : Leads t mid rest place n) : Leads t here (name :: rest) place (j + n + 1)

theorem Leads.unique {place' : List String} {n n' : Nat} (h : t.Leads here names place n)
    (h' : t.Leads here names place' n') : place = place' ∧ n = n' := by
  induction h generalizing place' n' with
  | done here =>
    cases h'
    exact ⟨rfl, rfl⟩
  | skip hname _ ih =>
    cases h' with
    | skip _ hrest => exact ih hrest
    | up => simp at hname
    | enter hentry => exact absurd hname (by simp [hentry.1, hentry.2.1])
    | follow hentry => exact absurd hname (by simp [hentry.1, hentry.2.1])
  | up _ ih =>
    cases h' with
    | skip hname => simp at hname
    | up hrest => exact ih hrest
    | enter hentry => exact absurd rfl hentry.2.2.1
    | follow hentry => exact absurd rfl hentry.2.2.1
  | enter hname hnode _ ih =>
    cases h' with
    | skip hskip => exact absurd hskip (by simp [hname.1, hname.2.1])
    | up => exact absurd rfl hname.2.2.1
    | enter _ _ hrest => exact ih hrest
    | follow _ hlink => exact absurd ⟨_, hlink⟩ hnode.not_isLink
  | follow hname hnode _ _ ih₁ ih₂ =>
    cases h' with
    | skip hskip => exact absurd hskip (by simp [hname.1, hname.2.1])
    | up => exact absurd rfl hname.2.2.1
    | enter _ hsolid => exact absurd ⟨_, hnode⟩ hsolid.not_isLink
    | follow _ hnode' htarget hrest =>
      cases hnode.symm.trans hnode'
      obtain ⟨rfl, rfl⟩ := ih₁ htarget
      obtain ⟨rfl, rfl⟩ := ih₂ hrest
      exact ⟨rfl, rfl⟩

theorem Leads.solid {n : Nat} (h : t.Leads here names place n) (hhere : t.Solid here) :
    t.Solid place := by
  induction h with
  | done here => exact hhere
  | skip _ _ ih => exact ih hhere
  | up _ ih => exact ih hhere.dropLast
  | enter _ hnode _ ih => exact ih hnode
  | follow _ _ _ _ ih₁ ih₂ =>
    refine ih₂ (ih₁ ?_)
    unfold linkStart
    split
    · exact solid_root t
    · exact hhere

def counts (name : String) : Bool := !(name == "" || name == ".")

theorem counts_eq_false_iff {name : String} : counts name = false ↔ name = "" ∨ name = "." := by
  rw [counts, Bool.not_eq_false', Bool.or_eq_true, beq_iff_eq, beq_iff_eq]

theorem IsEntryName.counts {name : String} (h : IsEntryName name) : counts name = true := by
  simp [FileTree.counts, h.1, h.2.1]

theorem Leads.of_filter {n : Nat} (h : t.Leads here (names.filter counts) place n) :
    t.Leads here names place n := by
  induction names generalizing here n with
  | nil => exact h
  | cons name names ih =>
    cases hcounts : counts name with
    | false =>
      rw [List.filter_cons_of_neg (by simp [hcounts])] at h
      exact .skip (counts_eq_false_iff.mp hcounts) (ih h)
    | true =>
      rw [List.filter_cons_of_pos hcounts] at h
      cases h with
      | skip hname => simp [counts_eq_false_iff.mpr hname] at hcounts
      | up hrest => exact .up (ih hrest)
      | enter hname hnode hrest => exact .enter hname hnode (ih hrest)
      | follow hname hnode htarget hrest => exact .follow hname hnode htarget (ih hrest)

theorem Leads.filter {n : Nat} (h : t.Leads here names place n) :
    t.Leads here (names.filter counts) place n := by
  induction h with
  | done here => exact .done here
  | skip hname _ ih => rwa [List.filter_cons_of_neg (by simp [counts_eq_false_iff.mpr hname])]
  | up _ ih => exact .up ih
  | enter hname hnode _ ih =>
    rw [List.filter_cons_of_pos hname.counts]
    exact .enter hname hnode ih
  | follow hname hnode htarget _ _ ih =>
    rw [List.filter_cons_of_pos hname.counts]
    exact .follow hname hnode htarget ih

/-- The components of a link's target and the texts between its slashes lead to the same place. -/
theorem Leads.namesIn {target : String} {n : Nat} (h : t.Leads here (linkParts target) place n) :
    t.Leads here (namesIn target) place n := by
  have hsame : (linkParts target).filter counts = (ImportGroups.namesIn target).filter counts := by
    have hdot : (if target.toList.getLast? == some '/' then ["."] else []).filter counts = [] := by
      split <;> rfl
    rw [linkParts, List.filter_append, hdot, List.append_nil, Text.segments, List.filter_filter]
    refine List.filter_congr fun name _ => ?_
    cases hname : name == "" <;> simp [counts, hname, bne]
  exact .of_filter (hsame ▸ h.filter)

theorem leads_of_locateFrom {links : Nat} {n : Node} (hnames : t.root.hasEntryNames = true)
    (h : t.locateFrom links here (names ++ rest) = .ok (place, n)) :
    ∃ mid j, t.Leads here names mid j ∧ j ≤ links ∧
      t.locateFrom (links - j) mid rest = .ok (place, n) := by
  induction links using Nat.strong_induction_on generalizing here names rest with
  | _ links ih =>
    induction names generalizing here with
    | nil => exact ⟨here, 0, .done here, Nat.zero_le _, h⟩
    | cons name names ih' =>
      rw [List.cons_append, locateFrom] at h
      split at h
      · rename_i hdot
        obtain ⟨mid, j, hleads, hj⟩ := ih' h
        exact ⟨mid, j, .skip (.inr (eq_of_beq hdot)) hleads, hj⟩
      split at h
      · rename_i hup
        obtain ⟨mid, j, hleads, hj⟩ := ih' h
        rw [eq_of_beq hup]
        exact ⟨mid, j, .up hleads, hj⟩
      split at h
      · cases h
      have hentry : ∀ {m : Node}, t.nodeAt (here ++ [name]) = some m → IsEntryName name :=
        fun hm => Node.isEntryName_of_nodeAt hnames hm name (by simp)
      split at h
      · cases h
      · rename_i entries hnode
        obtain ⟨mid, j, hleads, hj⟩ := ih' h
        exact ⟨mid, j, .enter (hentry hnode) ⟨_, hnode, by simp⟩ hleads, hj⟩
      · rename_i content hnode
        split at h
        · rename_i hempty
          obtain ⟨rfl, rfl⟩ : names = [] ∧ rest = [] := by simpa using hempty
          cases h
          refine ⟨_, 0, .enter (hentry hnode) ⟨_, hnode, by simp⟩ (.done _), Nat.zero_le _, ?_⟩
          rw [locateFrom, hnode]
        · cases h
      · rename_i target hnode
        cases links with
        | zero => cases h
        | succ links =>
          obtain ⟨mid, j, htarget, hj, hmid⟩ := ih links (Nat.lt_succ_self _) h
          obtain ⟨mid', j', hleads, hj', hrest⟩ := ih (links - j) (by omega) hmid
          refine ⟨mid', j + j' + 1, .follow (hentry hnode) hnode htarget.namesIn hleads, by omega, ?_⟩
          rwa [show links + 1 - (j + j' + 1) = links - j - j' by omega]

/-- Two dots stand in the path only at the beginning of a relative one. -/
def Normal (p : Path) : Prop := p.isAbsolute = true → ".." ∉ p.parts

theorem placeOf_push (cwd : List String) (p : Path) {name : String} (h : name ≠ "..") :
    placeOf cwd { p with parts := p.parts ++ [name] } = placeOf cwd p ++ [name] := by
  simp only [placeOf, List.foldl_append, List.foldl_cons, List.foldl_nil]
  rw [if_neg (by simpa using h)]
  rfl

theorem placeOf_up (cwd : List String) {p : Path} (h : Normal p) :
    placeOf cwd p.up = (placeOf cwd p).dropLast := by
  obtain ⟨anchor, parts⟩ := p
  have hpush : placeOf cwd ⟨anchor, parts ++ [".."]⟩ = (placeOf cwd ⟨anchor, parts⟩).dropLast := by
    simp only [placeOf, List.foldl_append, List.foldl_cons, List.foldl_nil]
    rfl
  have hdrop : ∀ {last : String}, parts.getLast? = some last → last ≠ ".." →
      placeOf cwd ⟨anchor, parts.dropLast⟩ = (placeOf cwd ⟨anchor, parts⟩).dropLast := by
    intro last hlast hne
    obtain ⟨init, rfl⟩ := List.getLast?_eq_some_iff.mp hlast
    rw [placeOf_push cwd ⟨anchor, init⟩ hne, List.dropLast_concat, List.dropLast_concat]
  unfold Path.up
  split
  · exact hpush
  · exact hpush
  · rename_i hnone hdots
    cases hlast : parts.getLast? with
    | some last =>
      refine hdrop hlast ?_
      rintro rfl
      cases anchor with
      | relative => exact hdots rfl hlast
      | root => exact h rfl (List.mem_of_getLast? hlast)
      | doubleRoot => exact h rfl (List.mem_of_getLast? hlast)
    | none =>
      cases List.getLast?_eq_none_iff.mp hlast
      cases anchor with
      | relative => exact (hnone rfl rfl).elim
      | root => rfl
      | doubleRoot => rfl

theorem Normal.up {p : Path} (h : Normal p) : Normal p.up := by
  obtain ⟨anchor, parts⟩ := p
  cases anchor with
  | relative =>
    intro habsolute
    unfold Path.up at habsolute
    split at habsolute <;> cases habsolute
  | root => exact fun _ hmem => h rfl (List.dropLast_subset _ hmem)
  | doubleRoot => exact fun _ hmem => h rfl (List.dropLast_subset _ hmem)

theorem Normal.push {p : Path} {name : String} (h : Normal p) (hname : name ≠ "..") :
    Normal { p with parts := p.parts ++ [name] } := by
  intro habsolute hmem
  rcases List.mem_append.mp hmem with hmem | hmem
  · exact h habsolute hmem
  · exact hname (List.mem_singleton.mp hmem).symm

theorem placeOf_linkStart (cwd : List String) {p : Path} (h : Normal p) (target : String) :
    let start := if (Path.ofString target).isAbsolute then Path.absolute [] else p
    placeOf cwd start = linkStart (placeOf cwd p) target ∧ Normal start := by
  unfold linkStart
  dsimp only
  split
  · exact ⟨rfl, fun _ => List.not_mem_nil⟩
  · exact ⟨rfl, h⟩

def LinkLeads (t : FileTree) (place mid : List String) (j : Nat) : Prop :=
  ∃ target, t.nodeAt place = some (.link target) ∧
    t.Leads (linkStart place.dropLast target) (namesIn target) mid j

theorem LinkLeads.unique {mid' : List String} {j j' : Nat} (h : t.LinkLeads place mid j)
    (h' : t.LinkLeads place mid' j') : mid = mid' ∧ j = j' := by
  obtain ⟨target, hnode, hleads⟩ := h
  obtain ⟨target', hnode', hleads'⟩ := h'
  cases hnode.symm.trans hnode'
  exact hleads.unique hleads'

theorem lookup_note {notes : LinkNotes} {q next : Path} {v w : Option Path} :
    ((next, v) :: notes).lookup q = some w ↔
      q = next ∧ v = w ∨ q ≠ next ∧ notes.lookup q = some w := by
  rw [List.lookup_cons]
  by_cases hq : q = next
  · simp [hq]
  · simp [hq, beq_eq_false_iff_ne.mpr hq]

def Told (t : FileTree) (cwd : List String) (notes : LinkNotes) : Prop :=
  ∀ q p, notes.lookup q = some (some p) →
    Normal p ∧ ∃ j, t.LinkLeads (placeOf cwd q) (placeOf cwd p) j

/-- The links that are being followed. Each takes `n` links more at least. -/
structure Opened (t : FileTree) (opened : List (List String)) (n : Nat) : Prop where
  nodup : opened.Nodup
  links : ∀ place ∈ opened, t.IsLink place
  costs : ∀ place ∈ opened, ∀ mid j, t.LinkLeads place mid j → n ≤ j

theorem Opened.mono {opened : List (List String)} {m n : Nat} (h : t.Opened opened n) (hm : m ≤ n) :
    t.Opened opened m :=
  ⟨h.nodup, h.links, fun place hplace mid j hj => Nat.le_trans hm (h.costs place hplace mid j hj)⟩

/-- A link that takes fewer links than those that are being followed is none of them. -/
theorem Opened.open {opened : List (List String)} {j n : Nat} (h : t.Opened opened n)
    (hlink : t.LinkLeads place mid j) (hj : j < n) :
    place ∉ opened ∧ t.Opened (place :: opened) j := by
  have hnot : place ∉ opened := fun hmem => by
    have := h.costs place hmem mid j hlink
    omega
  refine ⟨hnot, List.nodup_cons.mpr ⟨hnot, h.nodup⟩, ?_, ?_⟩
  · exact List.forall_mem_cons.mpr ⟨hlink.imp fun target hleads => hleads.1, h.links⟩
  · refine List.forall_mem_cons.mpr ⟨fun mid' j' hlink' => ?_, (h.mono (Nat.le_of_lt hj)).costs⟩
    exact Nat.le_of_eq (hlink.unique hlink').2

/-- A resolution on its way: it is at the path `p`, and what it has noted is right. `n` more links may
be followed. -/
structure OnWay (t : FileTree) (cwd : List String) (depth : Nat) (notes : LinkNotes)
    (opened : List (List String)) (n : Nat) (p : Path) : Prop where
  normal : Normal p
  told : t.Told cwd notes
  order : t.Opened opened n
  /-- A link without a result is one of those that are being followed. -/
  pending : ∀ q, notes.lookup q = some none → placeOf cwd q ∈ opened
  room : t.root.linkCount ≤ opened.length + depth

/-- The resolution comes to this place, and no other links are being followed than before. -/
structure Arrives (t : FileTree) (cwd : List String) (notes : LinkNotes) (place : List String)
    (q : Path) (notes' : LinkNotes) : Prop where
  place : placeOf cwd q = place
  normal : Normal q
  told : t.Told cwd notes'
  pending : ∀ q, notes'.lookup q = some none → notes.lookup q = some none

section OnWay

variable {depth n : Nat} {notes : LinkNotes} {opened : List (List String)} {p q : Path} {name : String}

theorem OnWay.go (h : t.OnWay cwd depth notes opened n p) (hq : Normal q) :
    t.OnWay cwd depth notes opened n q :=
  ⟨hq, h.told, h.order, h.pending, h.room⟩

theorem OnWay.mono {m : Nat} (h : t.OnWay cwd depth notes opened n p) (hm : m ≤ n) :
    t.OnWay cwd depth notes opened m p :=
  ⟨h.normal, h.told, h.order.mono hm, h.pending, h.room⟩

/-- A link that is new is opened. There are more links than those that are being followed, so one more
fits in. -/
theorem OnWay.open {next start : Path} {j : Nat} (h : t.OnWay cwd depth notes opened n p)
    (hlink : t.LinkLeads (placeOf cwd next) mid j) (hj : j < n) (hstart : Normal start) :
    ∃ inner, depth = inner + 1 ∧
      t.OnWay cwd inner ((next, none) :: notes) (placeOf cwd next :: opened) j start := by
  obtain ⟨-, hopened⟩ := h.order.open hlink hj
  have hroom := length_le_linkCount hopened.nodup hopened.links
  have hold := h.room
  rw [List.length_cons] at hroom
  refine ⟨depth - 1, by omega, hstart, fun q v hv => ?_, hopened, fun q hq => ?_, ?_⟩
  · rcases lookup_note.mp hv with ⟨-, hnone⟩ | ⟨-, hv⟩
    · cases hnone
    · exact h.told q v hv
  · rcases lookup_note.mp hq with ⟨rfl, -⟩ | ⟨-, hq⟩
    · exact List.mem_cons_self
    · exact List.mem_cons_of_mem _ (h.pending q hq)
  · rw [List.length_cons]
    omega

/-- The result of a link is noted in place of the mark that it is being followed. -/
theorem Arrives.note {next : Path} {notes₁ : LinkNotes} {j : Nat}
    (h : t.Arrives cwd ((next, none) :: notes) mid q notes₁)
    (hlink : t.LinkLeads (placeOf cwd next) mid j) :
    t.Arrives cwd notes mid q ((next, some q) :: notes₁) := by
  refine ⟨h.place, h.normal, fun q' v hv => ?_, fun q' hq' => ?_⟩
  · rcases lookup_note.mp hv with ⟨rfl, hnoted⟩ | ⟨-, hv⟩
    · obtain rfl := Option.some.inj hnoted
      exact ⟨h.normal, j, by rwa [h.place]⟩
    · exact h.told q' v hv
  · rcases lookup_note.mp hq' with ⟨-, hsome⟩ | ⟨hne, hq'⟩
    · cases hsome
    · rcases lookup_note.mp (h.pending q' hq') with ⟨heq, -⟩ | ⟨-, hq'⟩
      · exact absurd heq hne
      · exact hq'

theorem OnWay.after {notes' : LinkNotes} (h : t.OnWay cwd depth notes opened n p)
    (harrives : t.Arrives cwd notes mid q notes') : t.OnWay cwd depth notes' opened n q :=
  ⟨harrives.normal, harrives.told, h.order, fun q' hq' => h.pending q' (harrives.pending q' hq'),
    h.room⟩

theorem resolveFrom_solid (hname : IsEntryName name)
    (hnode : ¬ t.IsLink (placeOf cwd { p with parts := p.parts ++ [name] })) :
    t.resolveFrom cwd depth notes p (name :: rest) =
      t.resolveFrom cwd depth notes { p with parts := p.parts ++ [name] } rest := by
  rw [resolveFrom, if_neg (by simp [hname.1, hname.2.1]), if_neg (by simp [hname.2.2.1]),
    if_neg (by simp [hname.2.2.2])]
  dsimp only
  split
  · rename_i target hlink
    exact absurd ⟨target, hlink⟩ hnode
  · rfl

section Link

variable {target : String} (hname : IsEntryName name)
  (hnode : t.nodeAt (placeOf cwd { p with parts := p.parts ++ [name] }) = some (.link target))
include hname hnode

theorem resolveFrom_noted
    (hlookup : notes.lookup { p with parts := p.parts ++ [name] } = some (some q)) :
    t.resolveFrom cwd depth notes p (name :: rest) = t.resolveFrom cwd depth notes q rest := by
  rw [resolveFrom, if_neg (by simp [hname.1, hname.2.1]), if_neg (by simp [hname.2.2.1]),
    if_neg (by simp [hname.2.2.2])]
  dsimp only
  rw [hnode]
  dsimp only
  rw [hlookup]

theorem resolveFrom_new {notes₁ : LinkNotes}
    (hlookup : notes.lookup { p with parts := p.parts ++ [name] } = none)
    (hresolve : t.resolveFrom cwd depth (({ p with parts := p.parts ++ [name] }, none) :: notes)
      (if (Path.ofString target).isAbsolute then Path.absolute [] else p) (namesIn target) =
        (.reached q, notes₁)) :
    t.resolveFrom cwd (depth + 1) notes p (name :: rest) =
      t.resolveFrom cwd (depth + 1) (({ p with parts := p.parts ++ [name] }, some q) :: notes₁) q
        rest := by
  rw [resolveFrom, if_neg (by simp [hname.1, hname.2.1]), if_neg (by simp [hname.2.2.1]),
    if_neg (by simp [hname.2.2.2])]
  dsimp only
  rw [hnode]
  dsimp only
  rw [hlookup]
  dsimp only
  rw [hresolve]

end Link

end OnWay

theorem resolveFrom_of_leads {n : Nat} (h : t.Leads here names place n) :
    ∀ (depth : Nat) (notes : LinkNotes) (opened : List (List String)) (p : Path),
      placeOf cwd p = here → t.OnWay cwd depth notes opened n p →
      ∃ q notes', t.resolveFrom cwd depth notes p names = (.reached q, notes') ∧
        t.Arrives cwd notes place q notes' := by
  induction h with
  | done here =>
    intro depth notes opened p hp hway
    exact ⟨p, notes, by rw [resolveFrom], hp, hway.normal, hway.told, fun _ => id⟩
  | skip hname _ ih =>
    intro depth notes opened p hp hway
    rw [resolveFrom, if_pos (by simpa using hname)]
    exact ih depth notes opened p hp hway
  | up _ ih =>
    intro depth notes opened p hp hway
    rw [resolveFrom, if_neg (by decide), if_pos (by decide)]
    exact ih depth notes opened p.up (by rw [placeOf_up cwd hway.normal, hp]) (hway.go hway.normal.up)
  | @enter here rest place name n hname hnode _ ih =>
    intro depth notes opened p hp hway
    have hnext : placeOf cwd { p with parts := p.parts ++ [name] } = here ++ [name] := by
      rw [placeOf_push cwd p hname.2.2.1, hp]
    rw [resolveFrom_solid hname (hnext ▸ hnode.not_isLink)]
    exact ih depth notes opened _ hnext (hway.go (hway.normal.push hname.2.2.1))
  | @follow here rest mid place name target j n hname hnode htarget _ ih₁ ih₂ =>
    intro depth notes opened p hp hway
    have hnext : placeOf cwd { p with parts := p.parts ++ [name] } = here ++ [name] := by
      rw [placeOf_push cwd p hname.2.2.1, hp]
    have hlink : t.LinkLeads (placeOf cwd { p with parts := p.parts ++ [name] }) mid j :=
      ⟨target, by rw [hnext, hnode], by rwa [hnext, List.dropLast_concat]⟩
    rw [← hnext] at hnode
    cases hlookup : notes.lookup { p with parts := p.parts ++ [name] } with
    | some note =>
      cases note with
      | none => exact absurd (hway.pending _ hlookup) (hway.order.open hlink (by omega)).1
      | some q =>
        -- the link was followed before, to the same place
        obtain ⟨hq, j', hlink'⟩ := hway.told _ q hlookup
        rw [resolveFrom_noted hname hnode hlookup]
        exact ih₂ depth notes opened q (hlink'.unique hlink).1 ((hway.go hq).mono (by omega))
    | none =>
      obtain ⟨hstart, hnormal⟩ := placeOf_linkStart cwd hway.normal target
      obtain ⟨inner, rfl, hopen⟩ := hway.open hlink (by omega) hnormal
      obtain ⟨q, notes₁, hresolve, harrives⟩ := ih₁ inner _ _ _ (by rw [hstart, hp]) hopen
      have hnoted := harrives.note hlink
      obtain ⟨q₂, notes₂, hrest, hend⟩ := ih₂ (inner + 1) _ opened q hnoted.place
        ((hway.after hnoted).mono (by omega))
      refine ⟨q₂, notes₂, ?_, hend.place, hend.normal, hend.told, ?_⟩
      · rw [resolveFrom_new hname hnode hlookup hresolve, hrest]
      · exact fun q' hq' => hnoted.pending q' (hend.pending q' hq')

theorem locateFrom_solid {links : Nat} {n : Node} (hnames : t.root.hasEntryNames = true)
    (hnode : t.nodeAt (here ++ names) = some n) (hnot : ∀ target, n ≠ .link target) :
    t.locateFrom links here names ≠ .error .tooManyLinks := by
  induction names generalizing here with
  | nil =>
    rw [locateFrom]
    split <;> simp
  | cons name names ih =>
    have hsplit : here ++ name :: names = here ++ [name] ++ names := by simp
    rw [hsplit] at hnode
    have hentry := Node.isEntryName_of_nodeAt hnames hnode name (by simp)
    have hsolid : t.Solid (here ++ [name]) := by
      cases names with
      | nil => exact ⟨n, by simpa using hnode, hnot⟩
      | cons other names => exact solid_of_below hnode (List.cons_ne_nil _ _)
    rw [locateFrom, if_neg (by simp [hentry.2.1]), if_neg (by simp [hentry.2.2.1])]
    split
    · simp
    split
    · simp
    · exact ih hnode
    · split <;> simp
    · rename_i target hlink
      exact absurd ⟨target, hlink⟩ hsolid.not_isLink

theorem placeOf_start (cwd : List String) (p : Path) :
    let start : Path := if p.isAbsolute then .absolute [] else {}
    placeOf cwd start = startOf cwd p ∧ Normal start := by
  unfold startOf
  dsimp only
  split
  · exact ⟨rfl, fun _ => List.not_mem_nil⟩
  · exact ⟨rfl, fun _ => List.not_mem_nil⟩

theorem solid_startOf (hcwd : t.Solid cwd) (p : Path) : t.Solid (startOf cwd p) := by
  unfold startOf
  split
  · exact solid_root t
  · exact hcwd

theorem resolve_of_leads {p : Path} {n : Nat} (hnames : t.root.hasEntryNames = true)
    (hcwd : t.Solid cwd) (h : t.Leads (startOf cwd p) p.parts place n) :
    t.resolve cwd p = .ok place := by
  obtain ⟨m, hm, hnot⟩ := h.solid (solid_startOf hcwd p)
  have hplace : ∀ name ∈ place, IsEntryName name := Node.isEntryName_of_nodeAt hnames hm
  obtain ⟨hstart, hnormal⟩ := placeOf_start cwd p
  have hdepth : t.root.linkCount ≤ t.linkDepth cwd := Nat.le_mul_of_pos_right _ (by omega)
  have hopened : t.Opened [] n := ⟨List.nodup_nil, by simp, by simp⟩
  have hway : t.OnWay cwd (t.linkDepth cwd) [] [] n _ :=
    ⟨hnormal, by simp [Told], hopened, by simp, by simpa using hdepth⟩
  obtain ⟨q, notes, hresolve, harrives⟩ :=
    resolveFrom_of_leads h (t.linkDepth cwd) [] [] _ hstart hway
  have hlocate : t.locate [] (Path.absolute place) ≠ .error .tooManyLinks := by
    rw [locate, if_neg (by simp [hasNul_names hplace])]
    split
    · simp
    · exact locateFrom_solid hnames hm hnot
  rw [resolve, hresolve]
  dsimp only
  rw [harrives.place, if_neg (by simp [hasNul_names hplace])]
  split
  · rename_i hloop
    exact absurd hloop hlocate
  · rfl

theorem leads_of_locate {anchor : Anchor} {more : List String} {m : Node}
    (hnames : t.root.hasEntryNames = true) (h : t.locate cwd ⟨anchor, names ++ more⟩ = .ok (place, m)) :
    ∃ mid j n, t.Leads (startOf cwd ⟨anchor, names⟩) names mid j ∧ t.Leads mid more place n := by
  unfold locate at h
  split_ifs at h
  obtain ⟨mid, j, hleads, -, hmid⟩ := leads_of_locateFrom hnames h
  rw [← List.append_nil more] at hmid
  obtain ⟨last, n, hleads', -, hlast⟩ := leads_of_locateFrom hnames hmid
  rw [locateFrom] at hlast
  split at hlast
  · cases hlast
    exact ⟨mid, j, n, hleads, hleads'⟩
  · cases hlast

/-- The resolver agrees with the system wherever that comes to a place, and there is no link there. -/
theorem resolve_of_locate {p : Path} {m : Node} (hnames : t.root.hasEntryNames = true)
    (hcwd : t.Solid cwd) (h : t.locate cwd p = .ok (place, m)) :
    t.resolve cwd p = .ok place ∧ t.Solid place := by
  obtain ⟨anchor, parts⟩ := p
  rw [← List.append_nil parts] at h
  obtain ⟨mid, j, n, hleads, hdone⟩ := leads_of_locate hnames h
  cases hdone
  exact ⟨resolve_of_leads hnames hcwd hleads, hleads.solid (solid_startOf hcwd _)⟩

theorem child_src (e : String) : (Path.ofString e).child "src" =
    ⟨(Path.ofString e).anchor, (Path.ofString e).parts ++ ["src"]⟩ := by
  rw [IsName.child (by decide)]
  rfl

theorem Leads.entry {top last : List String} {name : String} {n : Nat}
    (h : t.Leads top [name] last n) (hname : IsEntryName name) :
    t.IsLink (top ++ [name]) ∨ last = top ++ [name] := by
  cases h with
  | skip hskip => exact absurd hskip (by simp [hname.1, hname.2.1])
  | up => exact absurd rfl hname.2.2.1
  | enter _ _ hrest =>
    cases hrest
    exact .inr rfl
  | follow _ hnode => exact .inl ⟨_, hnode⟩

section Sources

variable {dir : Path} {e : String} {top : List String}

theorem rootFromGopath_below {parts : List String} (he : gopathEntries e = [e])
    (htop : t.resolve cwd (Path.ofString e) = .ok top)
    (hdir : t.resolve cwd dir = .ok (top ++ ["src"] ++ parts)) :
    t.rootFromGopath cwd dir e =
      if parts.length < rootDepth then .error (.refused .tooShallow)
      else .ok ("/".intercalate (parts.take rootDepth)) := by
  rw [rootFromGopath_of_entries hdir (by simp [he]), he]
  exact go_of_deciding ⟨⟨[], [], rfl, by simp⟩, top, htop, rfl⟩

theorem rootFromGopath_outside (he : gopathEntries e = [e])
    (htop : t.resolve cwd (Path.ofString e) = .ok top) (hdir : t.resolve cwd dir = .ok place)
    (hout : ∀ parts, place ≠ top ++ ["src"] ++ parts) :
    t.rootFromGopath cwd dir e = .error (.refused .outsideGopath) := by
  rw [rootFromGopath_of_misses hdir (by simpa [he] using ⟨top, htop, hout⟩), outsideError,
    if_neg (by simp [he])]

theorem rootFromGopath_linked {m : Node} (hnames : t.root.hasEntryNames = true)
    (hcwd : t.Solid cwd) (he : gopathEntries e = [e])
    (htop : t.resolve cwd (Path.ofString e) = .ok top) (hlink : t.IsLink (top ++ ["src"]))
    (hdir : t.locate cwd dir = .ok (place, m)) :
    t.rootFromGopath cwd dir e = .error (.refused .outsideGopath) := by
  obtain ⟨hresolve, hsolid⟩ := resolve_of_locate hnames hcwd hdir
  refine rootFromGopath_outside he htop hresolve fun parts hparts => ?_
  rw [hparts] at hsolid
  cases parts with
  | nil => exact hsolid.not_isLink (by rwa [List.append_nil])
  | cons name parts =>
    obtain ⟨n, hn, -⟩ := hsolid
    exact (solid_of_below hn (List.cons_ne_nil _ _)).not_isLink hlink

end Sources

/-- Links in the path of a GOPATH entry and in that of the working directory do not matter: both
are taken to their places, and the root package is read off below the place of the sources. A link
at `src` itself does matter, nothing is found below it. -/
theorem gopath_lookup_follows_links (t : FileTree) (cwd : List String) (dir : Path) (e : String)
    (src place : List String) (entries : List (String × Node)) (hnames : t.root.hasEntryNames = true)
    (hcwd : t.Solid cwd) (he : gopathEntries e = [e])
    (hsrc : t.locate cwd ((Path.ofString e).child "src") = .ok (src, .dir entries))
    (hdir : t.resolve cwd dir = .ok place) :
    ∃ top, t.resolve cwd (Path.ofString e) = .ok top ∧
      t.resolve cwd ((Path.ofString e).child "src") = .ok src ∧
      (¬ t.IsLink (top ++ ["src"]) → src = top ++ ["src"] ∧
        (∀ s₁ s₂ parts, place = src ++ s₁ :: s₂ :: parts →
          t.rootFromGopath cwd dir e = .ok (s₁ ++ "/" ++ s₂)) ∧
        (t.rootFromGopath cwd dir e = .error (.refused .outsideGopath) ↔
          ∀ parts, place ≠ src ++ parts)) ∧
      (t.IsLink (top ++ ["src"]) → (∃ n, t.locate cwd dir = .ok (place, n)) →
        t.rootFromGopath cwd dir e = .error (.refused .outsideGopath)) := by
  have hresolve := (resolve_of_locate hnames hcwd hsrc).1
  rw [child_src] at hsrc
  obtain ⟨top, j, n, htop, hlast⟩ := leads_of_locate hnames hsrc
  have hentry := resolve_of_leads hnames hcwd htop
  refine ⟨top, hentry, hresolve, fun hplain => ?_, fun hlink hfound => ?_⟩
  · obtain rfl : src = top ++ ["src"] := (hlast.entry (by decide)).resolve_left hplain
    refine ⟨rfl, ?_, ?_⟩
    · rintro s₁ s₂ parts rfl
      rw [rootFromGopath_below he hentry hdir, if_neg (by simp [rootDepth])]
      rfl
    · constructor
      · rintro hout parts rfl
        rw [rootFromGopath_below he hentry hdir] at hout
        split at hout <;> cases hout
      · exact rootFromGopath_outside he hentry hdir
  · obtain ⟨m, hm⟩ := hfound
    exact rootFromGopath_linked hnames hcwd he hentry hlink hm

def linkedGopath : FileTree where
  entries := [("real", .dir [("src", .dir [("a", .dir [("b", .dir [])])])]), ("g", .link "real"),
    ("w", .link "g/src/a/b")]

theorem linkedGopath_real (links : Nat) (rest : List String) :
    linkedGopath.locateFrom (links + 1) [] ("g" :: rest) =
      linkedGopath.locateFrom links ["real"] rest := by
  have hparts : linkParts "real" = ["real"] := by decide +kernel
  refine (locateFrom_link (by decide +kernel) rfl).trans ?_
  rw [hparts]
  exact locateFrom_dir (by decide +kernel) rfl

theorem linkedGopath_src : linkedGopath.locate [] ((Path.ofString "/g").child "src") =
    .ok (["real", "src"], .dir [("a", .dir [("b", .dir [])])]) := by
  have hpath : (Path.ofString "/g").child "src" = ⟨.root, ["g", "src"]⟩ := by decide +kernel
  rw [hpath, locate, if_neg (by decide +kernel), if_neg (by decide +kernel)]
  refine (linkedGopath_real _ _).trans ((locateFrom_dir (by decide +kernel) rfl).trans ?_)
  rw [locateFrom]
  rfl

theorem linkedGopath_g : linkedGopath.locate [] (Path.ofString "/g") =
    .ok (["real"], .dir [("src", .dir [("a", .dir [("b", .dir [])])])]) := by
  have hpath : Path.ofString "/g" = ⟨.root, ["g"]⟩ := by decide +kernel
  rw [hpath, locate, if_neg (by decide +kernel), if_neg (by decide +kernel)]
  refine (linkedGopath_real _ _).trans ?_
  rw [locateFrom]
  rfl

theorem linkedGopath_w : linkedGopath.locate [] ⟨.root, ["w"]⟩ =
    .ok (["real", "src", "a", "b"], .dir []) := by
  have hparts : linkParts "g/src/a/b" ++ [] = ["g", "src", "a", "b"] := by decide +kernel
  rw [locate, if_neg (by decide +kernel), if_neg (by decide +kernel)]
  refine (locateFrom_link (by decide +kernel) rfl).trans ?_
  rw [hparts]
  refine (linkedGopath_real _ _).trans ((locateFrom_dir (by decide +kernel) rfl).trans ?_)
  refine (locateFrom_dir (by decide +kernel) rfl).trans ?_
  refine (locateFrom_dir (by decide +kernel) rfl).trans ?_
  rw [locateFrom]
  rfl

theorem gopath_lookup_follows_links_linkedGopath :
    linkedGopath.root.hasEntryNames = true ∧ gopathEntries "/g" = ["/g"] ∧
      linkedGopath.rootFromGopath [] ⟨.root, ["w"]⟩ "/g" = .ok "a/b" := by
  have hnames : linkedGopath.root.hasEntryNames = true := by decide +kernel
  have he : gopathEntries "/g" = ["/g"] := by decide +kernel
  have hroot := solid_root linkedGopath
  obtain ⟨top, htop, -, hplain, -⟩ := gopath_lookup_follows_links linkedGopath []
    ⟨.root, ["w"]⟩ "/g" _ _ _ hnames hroot he linkedGopath_src
    (resolve_of_locate hnames hroot linkedGopath_w).1
  obtain rfl : ["real"] = top :=
    Except.ok.inj ((resolve_of_locate hnames hroot linkedGopath_g).1.symm.trans htop)
  have hsolid : linkedGopath.Solid ["real", "src"] := ⟨_, rfl, by simp⟩
  exact ⟨hnames, he, (hplain hsolid.not_isLink).2.1 "a" "b" [] rfl⟩

def linkedSources : FileTree where
  entries := [("real", .dir [("a", .dir [("b", .dir [])])]), ("g", .dir [("src", .link "../real")])]

theorem linkedSources_src (rest : List String) :
    linkedSources.locateFrom maxLinks [] ("g" :: "src" :: rest) =
      linkedSources.locateFrom 39 ["real"] rest := by
  have hparts : linkParts "../real" = ["..", "real"] := by decide +kernel
  refine (locateFrom_dir (by decide +kernel) rfl).trans ?_
  refine (locateFrom_link (by decide +kernel) rfl).trans ?_
  rw [hparts]
  have hreal : linkedSources.locateFrom 39 [] ("real" :: rest) =
      linkedSources.locateFrom 39 ["real"] rest :=
    locateFrom_dir (by decide +kernel) rfl
  rw [← hreal, List.cons_append, locateFrom]
  rfl

/-- A working directory below the sources is not found if the sources are a link. -/
theorem linked_sources_hide_root : ∃ (t : FileTree) (e : String) (src : List String)
    (entries : List (String × Node)) (dir : Path) (n : Node),
    t.locate [] ((Path.ofString e).child "src") = .ok (src, .dir entries) ∧
      t.locate [] dir = .ok (src ++ ["a", "b"], n) ∧
      t.rootFromGopath [] dir e = .error (.refused .outsideGopath) := by
  have hnames : linkedSources.root.hasEntryNames = true := by decide +kernel
  have hroot := solid_root linkedSources
  have hpath : (Path.ofString "/g").child "src" = ⟨.root, ["g", "src"]⟩ := by decide +kernel
  have hentry : Path.ofString "/g" = ⟨.root, ["g"]⟩ := by decide +kernel
  have htop : linkedSources.locate [] (Path.ofString "/g") =
      .ok (["g"], .dir [("src", .link "../real")]) := by
    rw [hentry, locate, if_neg (by decide +kernel), if_neg (by decide +kernel)]
    refine (locateFrom_dir (by decide +kernel) rfl).trans ?_
    rw [locateFrom]
    rfl
  have hdir : linkedSources.locate [] ⟨.root, ["g", "src", "a", "b"]⟩ =
      .ok (["real", "a", "b"], .dir []) := by
    rw [locate, if_neg (by decide +kernel), if_neg (by decide +kernel)]
    refine (linkedSources_src _).trans ((locateFrom_dir (by decide +kernel) rfl).trans ?_)
    refine (locateFrom_dir (by decide +kernel) rfl).trans ?_
    rw [locateFrom]
    rfl
  refine ⟨linkedSources, "/g", ["real"], [("a", .dir [("b", .dir [])])],
    ⟨.root, ["g", "src", "a", "b"]⟩, _, ?_, hdir, ?_⟩
  · rw [hpath, locate, if_neg (by decide +kernel), if_neg (by decide +kernel)]
    refine (linkedSources_src []).trans ?_
    rw [locateFrom]
    rfl
  · exact rootFromGopath_linked hnames hroot (by decide +kernel)
      (resolve_of_locate hnames hroot htop).1 ⟨_, rfl⟩ hdir

end FileTree

end ImportGroups
