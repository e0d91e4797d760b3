import ImportGroups.Proofs.Soundness.Whole
import ImportGroups.Source.Rounds

/-!
The tree of every source fits it.

What one version does with a token keeps the reading sound, and so does giving up versions after a
round. From this it follows, round after round, for the tree that is read in the end.
-/

namespace ImportGroups.Source

open Text (Bytes)
open Automaton (lost rulesBefore after actions)

namespace Automaton

variable {s q : State} {t : Symbol}

theorem afterSymbol_of_shift (h : .shift q ∈ actions s t) : afterSymbol s t = q := by
  unfold actions at h
  split_ifs at h
  all_goals simp only [List.mem_append, List.mem_map, List.mem_singleton, List.not_mem_nil,
    reduceCtorEq, and_false, exists_false, false_or] at h
  unfold afterSymbol
  split at h
  · split_ifs at h with hentry
    · obtain rfl := Action.shift.inj (List.mem_singleton.mp h)
      exact Nat.mod_eq_of_lt hentry
    · cases h
  · cases h

theorem final_of_accept (h : .accept ∈ actions s t) : s = final ∧ t = .endOfFile := by
  unfold actions at h
  split_ifs at h with _ _ _ hs ht
  all_goals simp only [List.mem_append, List.mem_map, List.mem_singleton, List.not_mem_nil,
    reduceCtorEq, and_false, exists_false, false_or] at h
  · exact ⟨eq_of_beq hs, eq_of_beq ht⟩
  · split at h
    · split_ifs at h
      · cases List.mem_singleton.mp h
      · cases h
    · cases h

theorem comment_of_pass (h : .pass ∈ actions s t) : t = .comment := by
  unfold actions at h
  split_ifs at h with ht
  · exact eq_of_beq ht
  all_goals simp only [List.mem_append, List.mem_map, List.mem_singleton, List.not_mem_nil,
    reduceCtorEq, and_false, exists_false, false_or] at h
  split at h
  · split_ifs at h
    · cases List.mem_singleton.mp h
    · cases h
  · cases h

end Automaton

theorem mem_actions_of_token {s : State} {token : Tree} {x : Action}
    (h : x ∈ (token.symbol?.map (actions s)).getD []) :
    ∃ t, token.label = .token t ∧ x ∈ actions s t := by
  unfold Tree.symbol? at h
  split at h
  · exact ⟨_, ‹_›, h⟩
  · cases h

theorem rulesBefore_of_token (s : State) (token : Tree) :
    ∀ r ∈ allRulesOf ((token.symbol?.map (actions s)).getD []), ∃ t, r ∈ rulesBefore s t := by
  intro r hr
  obtain ⟨x, hx, hreduce⟩ := List.mem_filterMap.mp hr
  obtain ⟨t, -, hx⟩ := mem_actions_of_token hx
  cases x with
  | reduce r' =>
    cases hreduce
    exact ⟨t, Automaton.mem_rulesBefore_of_actions hx⟩
  | shift | pass | accept | recover => cases hreduce

namespace Contest

variable {L : Law} {c c' : Contest} {v w a : Nat} {token : Tree}

theorem size_setVersion (c : Contest) (v : Nat) (x : Version) :
    (c.setVersion v x).versions.size = c.versions.size :=
  Array.size_setIfInBounds

theorem size_skip (c : Contest) (v : Nat) (token : Tree) :
    (c.skip v token).versions.size = c.versions.size := by
  unfold skip
  dsimp only
  split
  · rw [size_push, size_setVersion]
  · rw [size_push]

theorem size_accept (c : Contest) (v : Nat) (token : Tree) :
    (c.accept v token).versions.size = c.versions.size := by
  unfold accept setStatus
  dsimp only
  rw [size_setVersion, (foldl_offer_keeps _ _).2, size_push]

/-- The reading fits, and the version is still there. -/
def Has (L : Law) (v : Nat) (c : Contest) : Prop := c.Ready L ∧ v < c.versions.size

theorem Ready.halted (h : c.Ready L) (hv : v < c.versions.size) : (c.setStatus v .halted).Has L v := by
  have hahead : (c.setStatus v .halted).Ahead L.front :=
    h.ahead.setVersion (x := { c.version v with status := .halted }) nofun v
  exact ⟨⟨(h.but v).halt, hahead⟩, (size_setVersion c v _).symm ▸ hv⟩

theorem IsAt.setVersion {x : Version} (hv : c.IsAt v a) (h : c.Ready L)
    (hx : x.head = (c.version v).head) :
    (c.setVersion v x).Ready L ∧ (c.setVersion v x).IsAt v a :=
  ⟨h.setVersion hx, hv.of_head h.toSound (.refl L _) (head?_setVersion_of_head hx v)⟩

theorem recover_has [L.Stable] (h : c.Ready L) (hv : c.IsAt v a) (ht : token.IsToken L.src a) :
    (c.recover v token).Has L v := by
  obtain ⟨hsettled, hat⟩ : (c.settle v).Ready L ∧ (c.settle v).IsAt v a := hv.setVersion h rfl
  unfold recover
  dsimp only
  generalize c.settle v = c at hsettled hat ⊢
  -- going back adds versions, and `v` stays where it is
  have hback : c.Adds L a (if token.isError then c
      else goBack v token c.versions.size ((c.version v).levels?.getD []) c) := by
    split_ifs
    · exact .refl hsettled.toSound
    · exact goBack_adds token _ _ hsettled.toSound hat
  have hmark := hback.mark hsettled.toSound hat.lt
  have hat' := hat.adds hsettled.toSound hback
  have hready := hsettled.adds hback (hsettled.front hat)
  generalize (if token.isError then c
    else goBack v token c.versions.size ((c.version v).levels?.getD []) c) = c' at *
  rw [← hmark]
  split_ifs with _ hend
  · exact hready.halted hat'.lt
  · refine ⟨hready.acceptError hat' ht (eq_of_beq hend), ?_⟩
    rw [size_accept, size_push]
    exact hat'.lt
  · exact hready.halted hat'.lt
  · exact ⟨skip_ready hready hat' ht, (size_skip c' v token).symm ▸ hat'.lt⟩

theorem fallOut_has [L.Stable] (h : c.Ready L) (hv : c.IsAt v a) (ht : token.IsToken L.src a) :
    (c.fallOut v token).Has L v := by
  have hforming : Forming L none v c.versions.size a c (c.prepare v none).1 :=
    prepare_forming h hv (.inl rfl)
  unfold fallOut
  dsimp only
  generalize (c.prepare v none).1 = c' at hforming ⊢
  obtain ⟨hfallen, hat⟩ := fall_isAt token (c'.versions.size + 1) false hforming.ready
    (Nat.le_refl _) hforming.fresh (.inl rfl)
  have hsize := hforming.kept rfl
  obtain ⟨hmerged, hat⟩ := mergeTimes_isAt (c'.versions.size - c.versions.size) hfallen
    (hat v (.inl rfl) (Nat.lt_of_lt_of_le hv.lt hsize)) hv.lt
  generalize mergeTimes v c.versions.size _ _ = c'' at hmerged hat ⊢
  obtain ⟨hlevels, hat⟩ := hat.setVersion hmerged
    (x := { c''.version v with levels? := some (c''.places.levels (c''.version v).top) }) rfl
  exact recover_has hlevels hat ht

/-- A version takes a token with the step that the automaton says in a state. -/
def take (c : Contest) (v : Nat) (s : State) (token : Tree) : Action → Contest
  | .shift target => c.push v (some token) target
  | .pass => c.push v (some { token with extra := true }) s
  | .accept => c.accept v token
  | .recover => c.recover v token
  | .reduce _ => c

theorem take_has [L.Stable] {x : Action} {s : State} (h : c.Ready L) (hv : c.IsAt v a)
    (ht : token.IsToken L.src a) (hs : (c.top v).state = s)
    (hx : x ∈ (token.symbol?.map (actions s)).getD []) : (c.take v s token x).Has L v := by
  obtain ⟨t, hlabel, hx⟩ := mem_actions_of_token hx
  have hoffset : (c.top v).stand.offset = a := hv.offset
  have hfront : L.front ≤ (c.top v).stand.offset := hoffset.symm ▸ h.front hv
  have htoken : token.IsToken L.src (c.top v).stand.offset := hoffset.symm ▸ ht
  have hle : L.front ≤ token.stop.offset :=
    Nat.le_trans hfront (Nat.le_trans htoken.behind ht.sound.le)
  cases x with
  | shift target =>
    have hpart : IsPart (c.top v).state target token := by
      refine ⟨ht.extra, ?_, by simp [ht.missing]⟩
      rw [hlabel, after, hs, Automaton.afterSymbol_of_shift hx]
    have hpush : c.Extends L v (c.push v (some token) target) :=
      h.push hv ⟨ht.sound, htoken.behind, rfl, .inl ht.specless, by simp [ht.extra]⟩
        (.part hpart (Law.Stable.token hfront htoken))
    exact ⟨⟨hpush.sound, h.ahead.push h.toSound hv hpush.grows hle⟩, (size_push ..).symm ▸ hv.lt⟩
  | pass =>
    have halike : token.Alike { token with extra := true } := ⟨rfl, rfl, rfl, rfl, rfl, rfl⟩
    obtain rfl := Automaton.comment_of_pass hx
    subst hs
    have hpush : c.Extends L v (c.push v (some { token with extra := true }) (c.top v).state) :=
      h.push hv ⟨halike.sound ht.sound, htoken.behind, rfl, .inl (halike.specless ht.specless),
          by simp [hlabel]⟩ (.extra rfl (Law.Stable.passed hfront htoken hlabel))
    exact ⟨⟨hpush.sound, h.ahead.push h.toSound hv hpush.grows hle⟩, (size_push ..).symm ▸ hv.lt⟩
  | accept =>
    obtain ⟨rfl, rfl⟩ := Automaton.final_of_accept hx
    exact ⟨h.accept hv hs ht hlabel, (size_accept ..).symm ▸ hv.lt⟩
  | recover => exact recover_has h hv ht
  | reduce _ => exact ⟨h, hv.lt⟩

theorem Ready.pause (h : c.Ready L) (hv : c.IsAt v a) (ht : token.IsToken L.src a) (settled : Nat) :
    (c.setVersion v { c.version v with status := .paused token, settled }).Has L v := by
  have hfits : Version.Fits L c.places { c.version v with status := .paused token, settled } := by
    refine ⟨(h.version v).top, fun _ => hv.isOpen h.toSound, ?_⟩
    rintro t ⟨⟩
    show token.IsToken L.src (c.offset v)
    rwa [hv.offset]
  refine ⟨⟨h.toSound.setVersion hfits v, h.ahead.setVersion (fun _ => ?_) v⟩,
    (size_setVersion ..).symm ▸ hv.lt⟩
  exact Nat.le_trans (h.front hv) (Nat.le_of_eq hv.offset.symm)

theorem act_has [L.Stable] (fuel : Nat) (h : c.Ready L) (hv : c.IsAt v a)
    (ht : token.IsToken L.src a) : (act fuel c v token).Has L v := by
  induction fuel generalizing c token with
  | zero => exact ⟨h, hv.lt⟩
  | succ fuel ih =>
    rw [act]
    dsimp only
    obtain ⟨hadds, hnew⟩ := reduceAll_adds h.toSound hv (h.front hv)
      (rulesBefore_of_token _ token) (Nat.le_refl _) (nofun : ∀ w ∈ (none : Option Nat), _)
    have hat := hv.adds h.toSound hadds
    have hready := h.adds hadds (h.front hv)
    have hstate := congrArg Stand.state (hadds.stand h.toSound hv.lt)
    generalize reduceAll v _ c none = x at hadds hnew hat hready hstate ⊢
    obtain ⟨c', new?⟩ := x
    cases hstep : lastStep? ((token.symbol?.map (actions (c.top v).state)).getD []) with
    | some step =>
      have htake := take_has hready hat ht hstate (List.mem_of_find?_eq_some hstep)
      cases step <;> exact htake
    | none =>
      cases new? with
      | some w =>
        obtain ⟨hw, hlt⟩ := hnew w rfl
        have hvw : v < w := Nat.lt_of_lt_of_le hv.lt hw
        have hhead := head?_moveVersion hvw hlt v
        rw [if_pos rfl] at hhead
        exact ih (hready.moveVersion hvw hlt)
          ((hadds.added w hw hlt).of_head hadds.sound (.refl L _) hhead) ht
      | none =>
        dsimp only
        split_ifs with _ hsoft
        · exact hready.halted hat.lt
        · simp only [Bool.and_eq_true] at hsoft
          exact ih hready hat (ht.asIdentifier hsoft.1.1)
        · exact recover_has hready hat ht
        · exact hready.pause hat ht _

theorem nextToken_isToken (h : c.Ready L) (v : Nat) :
    c.Proceeds L c.versions.size (c.nextToken v).2 ∧
      (c.nextToken v).1.IsToken L.src (c.offset v) := by
  have hread := readToken_isToken (c.top v).state (h.on v)
  have hfresh : c.Proceeds L c.versions.size { c with latest? := some ⟨(c.top v).mark.offset,
      (readToken (c.top v).state (c.top v).mark).1, (c.top v).state,
      (readToken (c.top v).state (c.top v).mark).2⟩ } := by
    refine ⟨⟨⟨h.places, h.bottom, h.versions, h.best, ?_⟩, .refl L _, fun _ _ => rfl⟩, h.ahead⟩
    rintro r ⟨⟩
    exact hread
  unfold nextToken
  dsimp only
  split
  · rename_i r hr
    split_ifs with hreuse
    · rw [Bool.and_eq_true, beq_iff_eq] at hreuse
      refine ⟨.refl h _, ?_⟩
      show r.token.IsToken L.src (c.top v).mark.offset
      rw [← hreuse.1]
      exact h.latest r hr
    · exact ⟨hfresh, hread⟩
  · exact ⟨hfresh, hread⟩

theorem isAt_of_isActive (hv : v < c.versions.size) (h : (c.version v).status.isActive = true) :
    c.IsAt v (c.offset v) := by
  have hhead : c.head? v = some (c.version v).head := by
    rw [head?, version, Array.getElem?_eq_getElem hv]
    rfl
  refine ⟨hhead.trans ?_, rfl⟩
  cases hs : (c.version v).status <;> simp_all [Status.isActive, Version.head]

theorem readOn_ready [L.Stable] (limit fuel far : Nat) (h : c.Has L v) :
    (readOn limit fuel c v far).1.Ready L := by
  induction fuel generalizing c with
  | zero => exact h.1
  | succ fuel ih =>
    rw [readOn]
    split_ifs with hstatus
    · exact h.1
    · have hat := isAt_of_isActive h.2 (by simpa using hstatus)
      obtain ⟨hnext, htoken⟩ := nextToken_isToken h.1 v
      have hact := act_has limit hnext.ready (hat.extends h.1.toSound hnext.toExtends h.2) htoken
      dsimp only
      split
      · exact hact.1
      · exact ih hact

theorem readAll_ready [L.Stable] (limit fuel far : Nat) (h : c.Ready L) :
    (readAll limit fuel c v far).1.Ready L := by
  induction fuel generalizing c v far with
  | zero => exact h
  | succ fuel ih =>
    rw [readAll]
    split_ifs with hv
    · exact h
    · exact ih _ (readOn_ready limit limit far ⟨h, Nat.lt_of_not_le hv⟩)

theorem Ready.swap {i j : Nat} (h : c.Ready L) (hi : i < c.versions.size)
    (hj : j < c.versions.size) :
    ((c.setVersion i (c.version j)).setVersion j (c.version i)).Ready L := by
  have hhead : ∀ w < c.versions.size, c.head? w = some (c.version w).head := by
    intro w hw
    rw [head?, version, Array.getElem?_eq_getElem hw]
    rfl
  have hfirst := h.ahead.setVersion (h.ahead j _ (hhead j hj)) i
  exact ⟨(h.toSound.setVersion (h.version j) i).setVersion (h.version i) j,
    hfirst.setVersion (h.ahead i _ (hhead i hi)) j⟩

theorem sift_ready (standing : Standing) (fuel i j : Nat) (h : c.Ready L)
    (hi : i < c.versions.size) : (sift standing fuel c i j).1.Ready L := by
  induction fuel generalizing c i j with
  | zero => exact h
  | succ fuel ih =>
    rw [sift]
    split
    · exact h
    · rename_i hij
      have hj : j < c.versions.size := by omega
      split
      · exact h.removeVersion i
      · refine ih _ _ (h.removeVersion j) ?_
        have hsize : c.versions.size - 1 ≤ (c.removeVersion j).versions.size := by
          refine size_of_heads fun u => ?_
          rw [head?_removeVersion]
          split_ifs
          · exact .inl rfl
          · exact .inr (.inl rfl)
        omega
      · split
        · exact h.merge ‹_›
        · exact ih _ _ (h.swap hi hj) (by simpa [size_setVersion] using hi)
      · split
        · exact h.merge ‹_›
        · exact ih _ _ h hi

theorem Ready.settle (h : c.Ready L) (v : Nat) : (c.settle v).Ready L := h.setVersion rfl

theorem siftAll_ready (fuel i : Nat) (least : Option Nat) (h : c.Ready L) :
    (siftAll fuel c i least).1.Ready L := by
  induction fuel generalizing c i least with
  | zero => exact h
  | succ fuel ih =>
    rw [siftAll]
    split_ifs with hi
    · exact h
    · exact ih _ _ (h.removeVersion i)
    · have hsifted := sift_ready ((c.settle i).standing i) ((c.settle i).versions.size + 1) i 0
        (h.settle i) (by rw [settle, size_setVersion]; omega)
      exact ih _ _ hsifted

theorem head?_of_paused (hv : (c.version v).status = .paused token) :
    c.head? v = some ((c.version v).top, .paused token) := by
  have hlt : v < c.versions.size := by
    refine Nat.lt_of_not_le fun hle => ?_
    rw [version, Array.getElem?_eq_none hle] at hv
    cases hv
  rw [← hv, head?, version, Array.getElem?_eq_getElem hlt]
  rfl

theorem Ready.activate (h : c.Ready L) (hv : (c.version v).status = .paused token) :
    (c.setStatus v .active).Ready L ∧ ∃ a, (c.setStatus v .active).IsAt v a ∧
      token.IsToken L.src a := by
  have hfits := h.version v
  have hhead := head?_of_paused hv
  obtain ⟨hactive, hat, -⟩ := h.setVersion_isAt (x := { c.version v with status := .active })
    (lt_size_of_head hhead) rfl (hfits.isOpen (by rw [hv]; rfl))
  have hahead : (c.setStatus v .active).Ahead L.front :=
    h.ahead.setVersion (x := { c.version v with status := .active })
      (fun _ => h.ahead v _ hhead rfl) v
  exact ⟨⟨hactive, hahead⟩, _, hat, hfits.paused token hv⟩

theorem Ready.resumed [L.Stable] (h : c.Ready L) (hv : (c.version v).status = .paused token) :
    ((c.setStatus v .active).fallOut v token).Ready L := by
  obtain ⟨hactive, a, hat, ht⟩ := h.activate hv
  exact (fallOut_has hactive hat ht).1

theorem resume_ready [L.Stable] (fuel i size : Nat) (resumed : Bool) (least : Option Nat)
    (h : c.Ready L) : (resume fuel c i size resumed least).1.Ready L := by
  induction fuel generalizing c i size resumed least with
  | zero => exact h
  | succ fuel ih =>
    rw [resume]
    split
    · exact h
    · split
      · rename_i token hpaused
        split
        · exact ih _ _ _ _ (h.resumed hpaused)
        · exact ih _ _ _ _ (h.removeVersion i)
      · exact ih _ _ _ _ h

theorem Ready.first (h : c.Ready L) (n : Nat) :
    { c with versions := c.versions.take n }.Ready L := by
  refine ⟨⟨h.places, h.bottom, fun x hx => h.versions x ?_, h.best, h.latest⟩, fun u x hx => ?_⟩
  · have hx : x ∈ c.versions.toList.take n := by
      simpa [Array.take_eq_extract] using Array.mem_toList_iff.mpr hx
    exact Array.mem_toList_iff.mp (List.mem_of_mem_take hx)
  · refine h.ahead u x ?_
    obtain ⟨y, hy, rfl⟩ := Option.map_eq_some_iff.mp hx
    have hy : (c.versions.toList.take n)[u]? = some y := by
      rw [← hy, ← Array.getElem?_toList]
      simp [Array.take_eq_extract]
    rw [List.getElem?_take] at hy
    split_ifs at hy
    rw [head?, ← Array.getElem?_toList, hy]
    rfl

theorem condense_ready [L.Stable] (h : c.Ready L) : c.condense.1.Ready L := by
  have hsifted := siftAll_ready (2 * c.versions.size + 1) 0 none h
  exact resume_ready _ _ _ _ _ (hsifted.first versionLimit)

theorem rounds_ready [L.Stable] (limit fuel far : Nat) (h : c.Ready L) :
    (c.rounds limit fuel far).Ready L := by
  induction fuel generalizing c far with
  | zero => exact h
  | succ fuel ih =>
    have hround := condense_ready (readAll_ready (v := 0) limit limit far h)
    rw [rounds]
    dsimp only
    split
    · exact hround
    · exact ih _ hround

theorem start_sound (hbest : L.best none) : (start L.src).Sound L := by
  have hplace : ∀ i < (start L.src).places.size,
      (start L.src).places.place i = { state := Automaton.initial, mark := .ofSource L.src } := by
    intro i hi
    obtain rfl : i = 0 := Nat.lt_one_iff.mp hi
    rfl
  have hlinks : ∀ i < (start L.src).places.size, ((start L.src).places.place i).links = [] := by
    intro i hi
    rw [hplace i hi]
  have hbottom : (start L.src).places.Open L 0 :=
    Stacks.open_of_links Nat.one_pos (by simp [hlinks 0 Nat.one_pos])
  refine ⟨⟨fun i hi => ?_, ?_, ?_, rfl, ?_⟩, hbottom, fun x hx => ?_, hbest, nofun⟩
  · rw [hplace i hi]
    exact Mark.on_ofSource L.src
  · intro i hi
    simp [hlinks i hi]
  · intro i hi
    simp [hlinks i hi]
  · intro i hi _
    exact Nat.lt_one_iff.mp hi
  · obtain rfl := List.mem_singleton.mp (Array.mem_toList_iff.mpr hx)
    exact ⟨hbottom.lt, fun _ => hbottom, nofun⟩

theorem start_ready (hfront : L.front = 0) (hbest : L.best none) : (start L.src).Ready L :=
  ⟨start_sound hbest, fun _ _ _ _ => hfront ▸ Nat.zero_le _⟩

end Contest

theorem readTree_best (L : Law) [L.Stable] (hfront : L.front = 0) (hbest : L.best none) :
    L.best (some (readTree L.src)) ∨
      readTree L.src = .node (.phrase .sourceFile) [] (.ofSource L.src) := by
  have hread := Contest.rounds_ready (stepLimit L.src) (stepLimit L.src) 0
    (Contest.start_ready hfront hbest)
  unfold readTree
  dsimp only
  cases hbest : ((Contest.start L.src).rounds (stepLimit L.src) (stepLimit L.src) 0).best? with
  | some t => exact .inl (hbest ▸ hread.best)
  | none => exact .inr rfl

theorem readTree_sound (src : Bytes) : (readTree src).Sound src := by
  rcases readTree_best (.plain src) rfl nofun with hsound | hnone
  · exact hsound _ rfl
  · rw [show readTree src = _ from hnone]
    exact Tree.sound_node (Mark.on_ofSource src) (by simp) (Nat.le_refl 0) trivial

end ImportGroups.Source
