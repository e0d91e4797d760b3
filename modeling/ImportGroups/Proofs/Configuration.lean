import ImportGroups.Proofs.VendorDirectory

/-!
What a configuration is made from.

A mapping is accepted exactly if all its keys are known and each has a value of its kind. What is
read is in normal form: written down again it is read as the same configuration. Options are put on
top one after the other; of the root and the vendor directory the last one given counts, patterns add
up, and the ignore file is switched off for good. Options that are refused change nothing.
-/

namespace ImportGroups

open Yaml (Value)

/-- `v` is what is left of `s` without the slashes at both ends. -/
structure Stripped (s v : String) : Prop where
  around : ∃ before after, (∀ c ∈ before, c = '/') ∧ (∀ c ∈ after, c = '/') ∧
    s.toList = before ++ v.toList ++ after
  head : v.toList.head? ≠ some '/'
  last : v.toList.getLast? ≠ some '/'

theorem stripped_trimChar (s : String) : Stripped s (Text.trimChar '/' s) := by
  refine ⟨?_, head?_trimSlashes s, getLast?_trimSlashes s⟩
  obtain ⟨after, hafter, hslashes⟩ :=
    Text.exists_append_dropEndWhile (· == '/') (s.toList.dropWhile (· == '/'))
  refine ⟨s.toList.takeWhile (· == '/'), after, ?_, ?_, ?_⟩
  · intro c hc
    simpa using List.mem_takeWhile_imp hc
  · intro c hc
    simpa using hslashes c hc
  · rw [Text.trimChar, String.toList_ofList, Text.trimWhile, List.append_assoc, ← hafter,
      List.takeWhile_append_dropWhile]

theorem trimChar_eq_empty_iff {s : String} :
    Text.trimChar '/' s = "" ↔ ∀ c ∈ s.toList, c = '/' := by
  constructor
  · intro h
    obtain ⟨before, after, hbefore, hafter, hs⟩ := (stripped_trimChar s).around
    rw [h, String.toList_empty, List.append_nil] at hs
    intro c hc
    rw [hs] at hc
    rcases List.mem_append.mp hc with hc | hc
    · exact hbefore c hc
    · exact hafter c hc
  · intro h
    rw [Text.trimChar, Text.trimWhile_of_all (by simpa using h), String.ofList_nil]

theorem vendorName?_eq_some_iff {s v : String} :
    vendorName? s = some v ↔ (∃ c ∈ s.toList, c ≠ '/') ∧ v = Text.trimChar '/' s := by
  have hempty : Text.trimChar '/' s ≠ "" ↔ ∃ c ∈ s.toList, c ≠ '/' := by
    rw [ne_eq, trimChar_eq_empty_iff]
    push Not
    rfl
  rw [← hempty, eq_comm (a := v)]
  simp only [vendorName?, Option.ite_none_left_eq_some, beq_iff_eq, Option.some.injEq, ne_eq]

/-- A proper name is already without slashes around it. -/
theorem vendorName?_of_isVendorName {v : String} (h : IsVendorName v) : vendorName? v = some v := by
  have hhead : ∀ c ∈ v.toList.head?, (c == '/') = false := by
    intro c hc
    have hne : c ≠ '/' := fun heq => h.head (heq ▸ hc)
    simpa using hne
  have hlast : ∀ c ∈ v.toList.getLast?, (c == '/') = false := by
    intro c hc
    have hne : c ≠ '/' := fun heq => h.last (heq ▸ hc)
    simpa using hne
  have htrim : Text.trimChar '/' v = v := by
    rw [Text.trimChar, Text.trimWhile, Text.dropWhile_eq_self hhead, Text.dropEndWhile_eq_self hlast,
      String.ofList_toList]
  simp [vendorName?, htrim, h.ne_empty]

def DistinctKeys (pairs : List (Value × Value)) : Prop :=
  pairs.Pairwise fun a b => a.1.sameKey b.1 = false

def Holds (pairs : List (Value × Value)) (name : String) (v : Value) : Prop :=
  (.str name, v) ∈ pairs

theorem sameKey_str (s t : String) : (Value.str s).sameKey (.str t) = (s == t) := by
  rw [Value.sameKey]

theorem valueOf?_eq_some_iff {pairs : List (Value × Value)} (hkeys : DistinctKeys pairs)
    {name : String} {v : Value} : valueOf? name pairs = some v ↔ Holds pairs name v := by
  unfold Holds
  induction pairs with
  | nil => simp [valueOf?]
  | cons pair rest ih =>
    obtain ⟨hfirst, hrest⟩ := List.pairwise_cons.mp hkeys
    obtain ⟨k, x⟩ := pair
    by_cases hk : k = .str name
    · subst hk
      have habsent : (.str name, v) ∉ rest := by
        intro hmem
        simpa [sameKey_str] using hfirst _ hmem
      simp [valueOf?, habsent, eq_comm]
    · have hskip : valueOf? name ((k, x) :: rest) = valueOf? name rest := by
        cases k with
        | str key => simp [valueOf?, show key ≠ name from fun heq => hk (heq ▸ rfl)]
        | _ => rfl
      rw [hskip, ih hrest]
      simp [Ne.symm hk]

theorem valueOf?_eq_none_iff {pairs : List (Value × Value)} (hkeys : DistinctKeys pairs)
    {name : String} : valueOf? name pairs = none ↔ ∀ v, ¬ Holds pairs name v := by
  simp only [Option.eq_none_iff_forall_ne_some, ne_eq, valueOf?_eq_some_iff hkeys]

theorem checkKeys_ok_iff {keys : List Value} :
    checkKeys keys = .ok () ↔ ∀ k ∈ keys, isKnownKey k = true := by
  have hnil : keys.filter (!isKnownKey ·) = [] ↔ ∀ k ∈ keys, isKnownKey k = true := by
    simp [List.filter_eq_nil_iff]
  rw [← hnil, checkKeys]
  cases keys.filter (!isKnownKey ·) with
  | nil => simp
  | cons k unknown =>
    dsimp only
    split_ifs <;> simp [refuse]

theorem rootOf_ok_iff {v? : Option Value} {root : Option String} :
    rootOf v? = .ok root ↔
      (v? = none ∨ v? = some .null) ∧ root = none ∨ ∃ s, v? = some (.str s) ∧ root = some s := by
  cases v? with
  | none => simp [rootOf, eq_comm (a := root)]
  | some v => cases v <;> simp [rootOf, refuse, eq_comm (a := root)]

theorem vendorOf_ok_iff {v? : Option Value} {name : String} :
    vendorOf v? = .ok name ↔
      v? = none ∧ name = "vendor" ∨ ∃ s, v? = some (.str s) ∧ vendorName? s = some name := by
  unfold vendorOf
  split
  · simp [eq_comm]
  · split <;> simp_all [refuse]
  · simp_all [refuse]

theorem mapM_stringOf?_eq_some_iff {items : List Value} {patterns : List String} :
    items.mapM stringOf? = some patterns ↔ items = patterns.map .str := by
  induction items generalizing patterns with
  | nil => cases patterns <;> simp
  | cons x items ih =>
    simp only [List.mapM_cons, Option.bind_eq_bind, Option.pure_def, Option.bind_eq_some_iff,
      Option.some.injEq, ih]
    constructor
    · rintro ⟨s, hs, rest, rfl, rfl⟩
      cases x <;> cases hs
      rfl
    · intro h
      obtain ⟨p, rest, rfl, rfl, rfl⟩ := List.map_eq_cons_iff.mp h.symm
      exact ⟨p, rfl, rest, rfl, rfl⟩

theorem excludeOf_ok_iff {v? : Option Value} {patterns : List String} :
    excludeOf v? = .ok patterns ↔
      (v? = none ∨ v? = some .null) ∧ patterns = [] ∨
      (∃ s, v? = some (.str s) ∧ (∃ c ∈ s.toList, Text.isBlank c = false) ∧ patterns = [s]) ∨
      v? = some (.seq (patterns.map .str)) := by
  cases v? with
  | none => simp [excludeOf]
  | some v =>
    cases v with
    | null => simp [excludeOf]
    | str s =>
      have hblank : Text.isAllBlank s = false ↔ ∃ c ∈ s.toList, Text.isBlank c = false := by
        simp [Text.isAllBlank]
      rw [excludeOf]
      split_ifs with h
      · simp [refuse, ← hblank, h]
      · simpa [← hblank, h] using eq_comm
    | seq items =>
      rw [excludeOf]
      cases hread : items.mapM stringOf? with
      | none =>
        have hnot : items ≠ patterns.map .str := by
          intro heq
          simp [mapM_stringOf?_eq_some_iff.mpr heq] at hread
        simp [refuse, hnot]
      | some read =>
        simp [← mapM_stringOf?_eq_some_iff, hread]
    | _ => simp [excludeOf, refuse]

theorem gitignoreOf_ok_iff {v? : Option Value} {b : Bool} :
    gitignoreOf v? = .ok b ↔ v? = none ∧ b = true ∨ v? = some (.bool b) := by
  cases v? with
  | none => simp [gitignoreOf, eq_comm]
  | some v => cases v <;> simp [gitignoreOf, refuse]

namespace Config

theorem ofMapping_ok_iff {pairs : List (Value × Value)} {c : Config} :
    ofMapping pairs = .ok c ↔
      (∀ k ∈ pairs.map (·.1), isKnownKey k = true) ∧
      rootOf (valueOf? "root" pairs) = .ok c.root ∧
      vendorOf (valueOf? "vendor" pairs) = .ok c.vendor ∧
      excludeOf (valueOf? "exclude" pairs) = .ok c.exclude ∧
      gitignoreOf (valueOf? "gitignore" pairs) = .ok c.gitignore := by
  rw [← checkKeys_ok_iff]
  constructor
  · intro h
    obtain ⟨⟨⟩, hkeys, h⟩ := bind_eq_ok_iff.mp h
    obtain ⟨root, hroot, h⟩ := bind_eq_ok_iff.mp h
    obtain ⟨vendor, hvendor, h⟩ := bind_eq_ok_iff.mp h
    obtain ⟨exclude, hexclude, h⟩ := bind_eq_ok_iff.mp h
    obtain ⟨gitignore, hgitignore, h⟩ := bind_eq_ok_iff.mp h
    cases h
    exact ⟨hkeys, hroot, hvendor, hexclude, hgitignore⟩
  · rintro ⟨hkeys, hroot, hvendor, hexclude, hgitignore⟩
    exact bind_eq_ok_iff.mpr ⟨_, hkeys, bind_eq_ok_iff.mpr ⟨_, hroot, bind_eq_ok_iff.mpr
      ⟨_, hvendor, bind_eq_ok_iff.mpr ⟨_, hexclude, bind_eq_ok_iff.mpr ⟨_, hgitignore, rfl⟩⟩⟩⟩⟩

/-- The mappings that make a configuration. Null stands for nothing given where it is allowed. -/
structure Documented (pairs : List (Value × Value)) : Prop where
  keys : ∀ k ∈ pairs.map (·.1),
    k = .str "root" ∨ k = .str "vendor" ∨ k = .str "exclude" ∨ k = .str "gitignore"
  root : ∀ v, Holds pairs "root" v → v = .null ∨ ∃ s, v = .str s
  vendor : ∀ v, Holds pairs "vendor" v → ∃ s, v = .str s ∧ ∃ c ∈ s.toList, c ≠ '/'
  exclude : ∀ v, Holds pairs "exclude" v →
    v = .null ∨ (∃ patterns : List String, v = .seq (patterns.map .str)) ∨
      ∃ s, v = .str s ∧ ∃ c ∈ s.toList, Text.isBlank c = false
  gitignore : ∀ v, Holds pairs "gitignore" v → ∃ b, v = .bool b

/-- The configuration has the values that the mapping gives, and defaults elsewhere. -/
structure Describes (pairs : List (Value × Value)) (c : Config) : Prop where
  root : ∀ s, c.root = some s ↔ Holds pairs "root" (.str s)
  vendor : (∃ s, Holds pairs "vendor" (.str s) ∧ Stripped s c.vendor) ∨
    (∀ v, ¬ Holds pairs "vendor" v) ∧ c.vendor = "vendor"
  exclude : Holds pairs "exclude" (.seq (c.exclude.map .str)) ∨
    (∃ s, Holds pairs "exclude" (.str s) ∧ c.exclude = [s]) ∨
    (∀ v, Holds pairs "exclude" v → v = .null) ∧ c.exclude = []
  gitignore : Holds pairs "gitignore" (.bool c.gitignore) ∨
    (∀ v, ¬ Holds pairs "gitignore" v) ∧ c.gitignore = true

theorem isKnownKey_iff {k : Value} :
    isKnownKey k = true ↔
      k = .str "root" ∨ k = .str "vendor" ∨ k = .str "exclude" ∨ k = .str "gitignore" := by
  cases k <;> simp [isKnownKey, knownKeys]

variable {pairs : List (Value × Value)} {c : Config}

theorem documented_of_ofMapping (hkeys : DistinctKeys pairs) (h : ofMapping pairs = .ok c) :
    Documented pairs := by
  obtain ⟨hknown, hroot, hvendor, hexclude, hgitignore⟩ := ofMapping_ok_iff.mp h
  constructor
  · intro k hk
    exact isKnownKey_iff.mp (hknown k hk)
  · intro v hv
    rw [(valueOf?_eq_some_iff hkeys).mpr hv, rootOf_ok_iff] at hroot
    grind
  · intro v hv
    rw [(valueOf?_eq_some_iff hkeys).mpr hv, vendorOf_ok_iff] at hvendor
    simp only [vendorName?_eq_some_iff] at hvendor
    grind
  · intro v hv
    rw [(valueOf?_eq_some_iff hkeys).mpr hv, excludeOf_ok_iff] at hexclude
    grind
  · intro v hv
    rw [(valueOf?_eq_some_iff hkeys).mpr hv, gitignoreOf_ok_iff] at hgitignore
    grind

theorem exists_ofMapping_of_documented (hkeys : DistinctKeys pairs) (h : Documented pairs) :
    ∃ c, ofMapping pairs = .ok c := by
  have hroot : ∃ root, rootOf (valueOf? "root" pairs) = .ok root := by
    cases hv : valueOf? "root" pairs with
    | none => exact ⟨none, rfl⟩
    | some v =>
      rcases h.root v ((valueOf?_eq_some_iff hkeys).mp hv) with rfl | ⟨s, rfl⟩
      · exact ⟨none, rfl⟩
      · exact ⟨some s, rfl⟩
  have hvendor : ∃ vendor, vendorOf (valueOf? "vendor" pairs) = .ok vendor := by
    cases hv : valueOf? "vendor" pairs with
    | none => exact ⟨"vendor", rfl⟩
    | some v =>
      obtain ⟨s, rfl, hs⟩ := h.vendor v ((valueOf?_eq_some_iff hkeys).mp hv)
      exact ⟨_, vendorOf_ok_iff.mpr (.inr ⟨s, rfl, vendorName?_eq_some_iff.mpr ⟨hs, rfl⟩⟩)⟩
  have hexclude : ∃ exclude, excludeOf (valueOf? "exclude" pairs) = .ok exclude := by
    cases hv : valueOf? "exclude" pairs with
    | none => exact ⟨[], rfl⟩
    | some v =>
      rcases h.exclude v ((valueOf?_eq_some_iff hkeys).mp hv) with
        rfl | ⟨patterns, rfl⟩ | ⟨s, rfl, hs⟩
      · exact ⟨[], rfl⟩
      · exact ⟨patterns, excludeOf_ok_iff.mpr (.inr (.inr rfl))⟩
      · exact ⟨[s], excludeOf_ok_iff.mpr (.inr (.inl ⟨s, rfl, hs, rfl⟩))⟩
  have hgitignore : ∃ gitignore, gitignoreOf (valueOf? "gitignore" pairs) = .ok gitignore := by
    cases hv : valueOf? "gitignore" pairs with
    | none => exact ⟨true, rfl⟩
    | some v =>
      obtain ⟨b, rfl⟩ := h.gitignore v ((valueOf?_eq_some_iff hkeys).mp hv)
      exact ⟨b, rfl⟩
  obtain ⟨root, hroot⟩ := hroot
  obtain ⟨vendor, hvendor⟩ := hvendor
  obtain ⟨exclude, hexclude⟩ := hexclude
  obtain ⟨gitignore, hgitignore⟩ := hgitignore
  refine ⟨⟨root, vendor, exclude, gitignore⟩, ofMapping_ok_iff.mpr ⟨?_, hroot, hvendor, hexclude,
    hgitignore⟩⟩
  intro k hk
  exact isKnownKey_iff.mpr (h.keys k hk)

theorem describes_of_ofMapping (hkeys : DistinctKeys pairs) (h : ofMapping pairs = .ok c) :
    Describes pairs c := by
  obtain ⟨-, hroot, hvendor, hexclude, hgitignore⟩ := ofMapping_ok_iff.mp h
  constructor
  · intro s
    rw [← valueOf?_eq_some_iff hkeys]
    rcases rootOf_ok_iff.mp hroot with ⟨hv | hv, hnone⟩ | ⟨given, hv, hgiven⟩
    · simp [hv, hnone]
    · simp [hv, hnone]
    · simp [hv, hgiven]
  · rcases vendorOf_ok_iff.mp hvendor with ⟨hv, hdefault⟩ | ⟨s, hv, hname⟩
    · exact .inr ⟨(valueOf?_eq_none_iff hkeys).mp hv, hdefault⟩
    · obtain ⟨-, hname⟩ := vendorName?_eq_some_iff.mp hname
      exact .inl ⟨s, (valueOf?_eq_some_iff hkeys).mp hv, hname ▸ stripped_trimChar s⟩
  · rcases excludeOf_ok_iff.mp hexclude with ⟨hv | hv, hnone⟩ | ⟨s, hv, -, hs⟩ | hv
    · refine .inr (.inr ⟨?_, hnone⟩)
      intro v hholds
      exact absurd hholds ((valueOf?_eq_none_iff hkeys).mp hv v)
    · refine .inr (.inr ⟨?_, hnone⟩)
      intro v hholds
      rw [← valueOf?_eq_some_iff hkeys, hv] at hholds
      exact (Option.some.inj hholds).symm
    · exact .inr (.inl ⟨s, (valueOf?_eq_some_iff hkeys).mp hv, hs⟩)
    · exact .inl ((valueOf?_eq_some_iff hkeys).mp hv)
  · rcases gitignoreOf_ok_iff.mp hgitignore with ⟨hv, hdefault⟩ | hv
    · exact .inr ⟨(valueOf?_eq_none_iff hkeys).mp hv, hdefault⟩
    · exact .inl ((valueOf?_eq_some_iff hkeys).mp hv)

def toMapping (c : Config) : List (Value × Value) :=
  [(.str "root", c.root.elim .null .str), (.str "vendor", .str c.vendor),
    (.str "exclude", .seq (c.exclude.map .str)), (.str "gitignore", .bool c.gitignore)]

theorem ofMapping_toMapping (hc : IsVendorName c.vendor) : ofMapping c.toMapping = .ok c := by
  refine ofMapping_ok_iff.mpr ⟨?_, ?_, ?_, ?_, ?_⟩
  · simp [toMapping, isKnownKey_iff]
  · cases hroot : c.root with
    | none => simp [toMapping, valueOf?, rootOf, hroot]
    | some s => simp [toMapping, valueOf?, rootOf, hroot]
  · refine vendorOf_ok_iff.mpr (.inr ⟨c.vendor, ?_, vendorName?_of_isVendorName hc⟩)
    simp [toMapping, valueOf?]
  · refine excludeOf_ok_iff.mpr (.inr (.inr ?_))
    simp [toMapping, valueOf?]
  · simp [toMapping, valueOf?, gitignoreOf]

/-- A mapping is accepted exactly if it is documented. The configuration then has what the mapping
gives, and read from its own fields it is the same again. -/
theorem mapping_accepted_iff_documented (pairs : List (Value × Value)) (hkeys : DistinctKeys pairs) :
    ((∃ c, ofMapping pairs = .ok c) ↔ Documented pairs) ∧
    ∀ c, ofMapping pairs = .ok c → Describes pairs c ∧ ofMapping c.toMapping = .ok c := by
  refine ⟨⟨?_, exists_ofMapping_of_documented hkeys⟩, ?_⟩
  · rintro ⟨c, h⟩
    exact documented_of_ofMapping hkeys h
  · intro c h
    exact ⟨describes_of_ofMapping hkeys h, ofMapping_toMapping (isVendorName_of_ofMapping h)⟩

/-- Slashes go, a single pattern is put into a list, and nothing is made of null. -/
def slashedMapping : List (Value × Value) :=
  [(.str "vendor", .str "//third/party/"), (.str "exclude", .str "*.pb.go"), (.str "root", .null)]

theorem mapping_accepted_iff_documented_slashed :
    DistinctKeys slashedMapping ∧ Documented slashedMapping ∧
      ofMapping slashedMapping = .ok { vendor := "third/party", exclude := ["*.pb.go"] } ∧
      ofMapping (toMapping { vendor := "third/party", exclude := ["*.pb.go"] }) =
        .ok { vendor := "third/party", exclude := ["*.pb.go"] } := by
  have hkeys : DistinctKeys slashedMapping := by
    simp [DistinctKeys, slashedMapping, sameKey_str]
  have hread : ofMapping slashedMapping =
      .ok { vendor := "third/party", exclude := ["*.pb.go"] } := rfl
  obtain ⟨hiff, hresult⟩ := mapping_accepted_iff_documented slashedMapping hkeys
  exact ⟨hkeys, hiff.mp ⟨_, hread⟩, hread, (hresult _ hread).2⟩

/-- The options name a vendor directory and leave nothing of it. -/
def Override.Refused (o : Override) : Prop := ∃ s ∈ o.vendor, ∀ c ∈ s.toList, c = '/'

instance (o : Override) : Decidable o.Refused :=
  inferInstanceAs (Decidable (∃ s ∈ o.vendor, ∀ c ∈ s.toList, c = '/'))

def put (c : Config) (o : Override) : Config where
  root := o.root.or c.root
  vendor := (o.vendor.map (Text.trimChar '/')).getD c.vendor
  exclude := c.exclude ++ o.exclude
  gitignore := c.gitignore && !o.noGitignore

theorem override_eq (c : Config) (o : Override) :
    c.override o = if o.Refused then .error .emptyVendorOption else .ok (c.put o) := by
  cases hvendor : o.vendor with
  | none => simp [override, put, Override.Refused, hvendor]
  | some s =>
    by_cases hs : Text.trimChar '/' s = ""
    · have hrefused : o.Refused := ⟨s, hvendor, trimChar_eq_empty_iff.mp hs⟩
      simp [override, hvendor, vendorName?, hs, hrefused]
    · have htaken : ¬ o.Refused := by
        rintro ⟨s', hs', hslashes⟩
        cases hvendor.symm.trans hs'
        exact hs (trimChar_eq_empty_iff.mpr hslashes)
      simp [override, hvendor, vendorName?, hs, htaken, put]

/-- Options are put on top one after the other. Those that are refused are left out. -/
def overrideAll (c : Config) (os : List Override) : Config :=
  os.foldl (fun c o => (c.override o).toOption.getD c) c

theorem overrideAll_eq (c : Config) (os : List Override) :
    c.overrideAll os = (os.filter (¬ ·.Refused)).foldl put c := by
  unfold overrideAll
  induction os generalizing c with
  | nil => rfl
  | cons o os ih =>
    rw [List.foldl_cons, ih, override_eq]
    by_cases ho : o.Refused
    · simp [ho, Except.toOption]
    · simp [ho, Except.toOption]

theorem getLast?_filterMap_cons {α β : Type} (f : α → Option β) (x : α) (xs : List α) :
    ((x :: xs).filterMap f).getLast? = (xs.filterMap f).getLast?.or (f x) := by
  cases hx : f x with
  | none => simp [hx]
  | some y => rw [List.filterMap_cons_some hx, List.getLast?_cons, Option.or_some]

theorem foldl_put (c : Config) (os : List Override) :
    os.foldl put c = {
      root := (os.filterMap (·.root)).getLast?.or c.root
      vendor := ((os.filterMap (·.vendor)).getLast?.map (Text.trimChar '/')).getD c.vendor
      exclude := c.exclude ++ os.flatMap (·.exclude)
      gitignore := c.gitignore && os.all (!·.noGitignore) } := by
  induction os generalizing c with
  | nil => simp
  | cons o os ih =>
    rw [List.foldl_cons, ih]
    simp only [put, getLast?_filterMap_cons, Option.or_assoc, Option.map_or, Option.getD_or,
      List.flatMap_cons, List.append_assoc, List.all_cons, Bool.and_assoc]

/-- Options are refused exactly if they leave nothing of a vendor directory, and then nothing of them
counts. Of the others the last root and the last vendor directory count, all patterns, and whether
one of them switches the ignore file off. -/
theorem overrides_compose (c : Config) (os : List Override) :
    (∀ d : Config, ∀ o e, d.override o = .error e ↔ o.Refused ∧ e = .emptyVendorOption) ∧
    let taken := os.filter (¬ ·.Refused)
    (c.overrideAll os).root = (taken.filterMap (·.root)).getLast?.or c.root ∧
    ((taken.filterMap (·.vendor)).getLast? = none → (c.overrideAll os).vendor = c.vendor) ∧
    (∀ s, (taken.filterMap (·.vendor)).getLast? = some s → Stripped s (c.overrideAll os).vendor) ∧
    (c.overrideAll os).exclude = c.exclude ++ taken.flatMap (·.exclude) ∧
    ((c.overrideAll os).gitignore = true ↔
      c.gitignore = true ∧ ∀ o ∈ taken, o.noGitignore = false) := by
  refine ⟨?_, ?_⟩
  · intro d o e
    rw [override_eq]
    by_cases ho : o.Refused
    · simp [ho, eq_comm]
    · simp [ho]
  · intro taken
    rw [overrideAll_eq, foldl_put]
    refine ⟨rfl, ?_, ?_, rfl, ?_⟩
    · intro hnone
      rw [hnone]
      rfl
    · intro s hs
      dsimp only
      rw [hs]
      exact stripped_trimChar s
    · rw [Bool.and_eq_true, List.all_eq_true]
      simp only [Bool.not_eq_true', taken]

end Config

end ImportGroups
