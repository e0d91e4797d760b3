import ImportGroups.Proofs.Reading.Lexing
import ImportGroups.Proofs.Reading.Single
import ImportGroups.Proofs.Truncation.Law
import ImportGroups.Proofs.Truncation.Words

/-!
The last rounds of a reading that breaks off.

The version that is left alone before the end of the source pauses, falls out of step and finds a tree
of the whole. If a word that does not fit comes before the end then there may be two more rounds: the
version that skipped the word finds the tree, or else the one that has gone back reads the word and
comes to the end.
-/

namespace ImportGroups.Source

open Automaton (lost actions)
open Text (Bytes)

section Read

variable {s : State} {m : Mark} {w : Bytes}

theorem tightSymbolAt?_nil {mode : Nat} (h : (modeSymbols mode).contains .rawContent = false) :
    tightSymbolAt? (modeSymbols mode) [] = none := by
  simp [tightSymbolAt?, h, escapeLength, contentLength]

/-- In these modes a source with nothing but blanks left is at its end. In a string no blank may come
before the end. -/
theorem readToken_blanks (hmode : Automaton.mode s ∈ [0, 1, 2, 3, 4, 9]) (h : m.rest = w)
    (hpos : 0 < m.offset) (hw : ∀ b ∈ w, blankIn (Automaton.mode s) b = true)
    (hstring : Automaton.mode s = 9 → w = []) :
    readToken s m = (m.token .endOfFile w [], false) := by
  have hbom := Mark.skipByteOrderMark_of_pos hpos
  have hblank : ∀ b ∈ w, isBlankByte b = true := fun b hb => (Bool.and_eq_true_iff.mp (hw b hb)).1
  have hrest : m.rest = w ++ ([] ++ []) := by simpa using h
  have htight : ∀ mode ∈ [0, 1, 2, 3, 4, 9], (mode = 9 → w = []) →
      tightSymbolAt? (modeSymbols mode) m.rest = none := by
    intro mode hmode hstring
    rw [h]
    by_cases hloose : mode = 0 ∨ mode = 9
    · cases w with
      | nil => rcases hloose with rfl | rfl <;> exact tightSymbolAt?_nil (by decide)
      | cons b w =>
        obtain rfl := hloose.resolve_right fun h => absurd (hstring h) (by simp)
        have hb := mem_of_isBlankByte (hblank b List.mem_cons_self)
        refine tightSymbolAt?_loose ?_ ?_ <;> rintro rfl <;> simp [quoteByte, backslashByte] at hb
    · refine tightSymbolAt?_eq_none ?_ w
      simp only [List.mem_cons, List.not_mem_nil, or_false] at hmode ⊢
      omega
  have hend : ∀ mode ∈ [0, 1, 2, 3, 4, 9], (mode = 9 → w = []) →
      (∀ b ∈ w, blankIn mode b = true) → (modeSymbols mode).contains .endOfFile = true →
      m.lex? (modeSymbols mode) = some ⟨.endOfFile, m.past w, (m.past w).past []⟩ := by
    intro mode hmode hstring hw hset
    exact lex?_of_symbolAt hrest hbom (htight mode hmode hstring) hw (by simp) (by simp [symbolAt?, hset])
  by_cases hset : (modeSymbols (Automaton.mode s)).contains .endOfFile = true
  · exact readToken_of_lex? (hend _ hmode hstring hw hset) (by decide)
  · -- the mode does not look for the end, but a reader out of step does
    have hzero : ∀ mode ∈ [0, 1, 2, 3, 4, 9], (modeSymbols mode).contains .endOfFile = false →
        (modeSymbols mode).contains .zero = false := by decide
    have hnone : m.lex? (modeSymbols (Automaton.mode s)) = none := by
      have hskip : m.skipBlanks (!(modeSymbols (Automaton.mode s)).contains .newline) = m.past w :=
        Mark.skipBlanks_past hrest hw (by simp)
      rw [Bool.not_eq_true] at hset
      simp [Mark.lex?, hbom, htight _ hmode hstring, hskip, Mark.rest_past hrest, symbolAt?, hset,
        hzero _ hmode hset]
    have hloose := hend 0 (by decide) (fun hzero => absurd hzero (by decide))
      (fun b hb => by simp [blankIn, hblank b hb, show (modeSymbols 0).contains .newline = false by decide])
      (by decide)
    simp [readToken, hnone, looseSymbols, hloose, Mark.token]

end Read

namespace Contest

variable {k : Cut} {c c' : Contest} {f : Footing} {token : Tree} {v limit far far' : Nat}

theorem Ready.found (h : c.Ready (k.law false)) (hbest : c.best?.isSome = true) :
    c.Ready (k.law true) :=
  ⟨⟨h.places, h.bottom, fun v hv => ⟨(h.versions v hv).top, (h.versions v hv).isOpen,
    (h.versions v hv).paused⟩, ⟨fun _ => hbest, h.best.2⟩, h.latest⟩, h.ahead⟩

theorem rounds_found (fuel : Nat)
    (h : (readAll limit limit c 0 far).1.condense.1.Ready (k.law true)) :
    (rounds limit (fuel + 1) c far).Ready (k.law true) := by
  rw [rounds]
  dsimp only
  split
  · exact h
  · exact rounds_ready _ _ _ h

structure Paused (c : Contest) (f : Footing) (token : Tree) : Prop where
  size : c.versions.size = 1
  stands : ∃ i, c.head? 0 = some (i, .paused token) ∧ i < c.places.size ∧ c.places.StandsOn i f

theorem act_pauses {t : Symbol} (h : c.Lined [.on f]) (hsymbol : token.symbol? = some t)
    (hactions : actions f.state t = []) (hsoft : t.isSoft = false) (hlost : f.state ≠ lost)
    (fuel : Nat) :
    (act (fuel + 1) c 0 token).Paused f token ∧ c.Idle (act (fuel + 1) c 0 token) ∧
      (act (fuel + 1) c 0 token).top 0 = c.top 0 := by
  obtain ⟨i, hhead, hi, hon⟩ := h.stands 0 _ rfl
  have hv := lt_size_of_head hhead
  obtain ⟨-, htop, -⟩ := version_of_head hhead
  have hstate : (c.top 0).state = f.state := (h.stands 0 _ rfl).state
  let x : Version := { c.version 0 with status := .paused token, settled := (c.top 0).shown }
  have hact : act (fuel + 1) c 0 token = c.setVersion 0 x := by
    simp [act, hstate, hsymbol, hactions, hsoft, hlost, allRulesOf, lastStep?, reduceAll, x]
  have hpaused : (c.setVersion 0 x).head? 0 = some (i, .paused token) := by
    rw [head?_setVersion, if_pos ⟨rfl, hv⟩, ← htop]
    rfl
  rw [hact]
  refine ⟨⟨(size_setVersion ..).trans h.size, i, hpaused, hi, hon⟩, ⟨rfl, rfl, rfl, .refl _⟩, ?_⟩
  rw [Contest.top, (version_of_head hpaused).2.1, Contest.top, htop]
  rfl

theorem readOn_pauses {t : Symbol} {r? : Option Reuse} (h : c.Lined [.on f])
    (hnext : c.nextToken 0 = (token, { c with latest? := r? })) (hsymbol : token.symbol? = some t)
    (hactions : actions f.state t = []) (hsoft : t.isSoft = false) (hlost : f.state ≠ lost)
    (hlimit : 0 < limit) (fuel far : Nat) :
    ∃ c', readOn limit (fuel + 2) c 0 far = (c', max far (c.offset 0)) ∧ c'.Paused f token ∧
      Idle { c with latest? := r? } c' ∧ c'.top 0 = c.top 0 := by
  obtain ⟨m, rfl⟩ : ∃ m, limit = m + 1 := ⟨limit - 1, by omega⟩
  have hlined : Lined { c with latest? := r? } [.on f] := ⟨h.size, h.stands⟩
  obtain ⟨hpaused, hidle, htop⟩ := act_pauses hlined hsymbol hactions hsoft hlost m
  obtain ⟨i, hhead, -⟩ := h.stands 0 _ rfl
  have hactive : (c.version 0).status = .active := (version_of_head hhead).2.2
  have herror := Tree.isError_of_symbol? hsymbol
  refine ⟨_, ?_, hpaused, hidle, htop⟩
  have hoffset : (act (m + 1) { c with latest? := r? } 0 token).offset 0 = c.offset 0 := by
    rw [Contest.offset, htop]
    rfl
  obtain ⟨j, hwaits, -⟩ := hpaused.stands
  have hstatus := (version_of_head hwaits).2.2
  rw [readOn, if_neg (by simp [hactive, Status.isActive]), hnext]
  simp only [herror, Bool.false_and, Bool.false_eq_true, if_false, hoffset, Nat.lt_irrefl,
    decide_false, Bool.or_false, decide_eq_true_eq]
  split
  · rw [Nat.max_eq_right (by omega)]
  · rw [readOn, if_pos (by simp [hstatus, Status.isActive]), Nat.max_eq_left (by omega)]

theorem condense_paused (h : c.Paused f token) (hfinished : c.finished < versionLimit) :
    ∃ c', c.condense.1 = c'.fallOut 0 token ∧ c'.Lined [.on f] ∧ c.Idle c' ∧
      (c'.top 0).mark = (c.top 0).mark := by
  obtain ⟨i, hhead, hi, hon⟩ := h.stands
  obtain ⟨-, htop, hstatus⟩ := version_of_head hhead
  obtain ⟨x, hx⟩ := Array.size_eq_one_iff.mp h.size
  have hversion : c.version 0 = x := by simp [Contest.version, hx]
  rw [hversion] at htop hstatus
  let y : Version := { x with settled := min x.settled (c.top 0).shown, status := .active }
  let c' : Contest := { c with versions := #[y] }
  have hhead' : c'.head? 0 = some (i, .active) := by
    rw [← htop]
    rfl
  refine ⟨c', ?_, Stands.lined ⟨i, hhead', hi, hon⟩ rfl, ⟨rfl, rfl, rfl, .refl _⟩, ?_⟩
  · unfold versionLimit at hfinished
    simp [condense, hx, siftAll, Contest.version, hstatus, Status.isHalted, settle, setVersion, sift,
      resume, versionLimit, hfinished, setStatus, c', y]
  · rw [Contest.top, (version_of_head hhead').2.1, Contest.top, hversion, htop]

theorem readAll_one (hsize : c.versions.size = 1) (hlimit : 2 ≤ limit)
    (hread : readOn limit limit c 0 far = (c', far')) (hsize' : c'.versions.size = 1) :
    readAll limit limit c 0 far = (c', far') := by
  obtain ⟨m, rfl⟩ : ∃ m, limit = m + 2 := ⟨limit - 2, by omega⟩
  rw [readAll, if_neg (by omega), hread]
  dsimp only
  rw [readAll, if_pos (by omega)]

theorem rounds_end (h : c.Ready (k.law false)) (hsize : c.versions.size = 1) (hlimit : 2 ≤ limit)
    (hread : readOn limit limit c 0 far = (c', far')) (hpaused : c'.Paused f token)
    (htoken : token.label = .token .endOfFile) (hends : f.ends = true)
    (hfinished : c'.finished < versionLimit) (fuel : Nat) :
    (rounds limit (fuel + 1) c far).Ready (k.law true) := by
  refine rounds_found fuel ((condense_ready (readAll_ready limit limit far h)).found ?_)
  rw [readAll_one hsize hlimit hread hpaused.size]
  obtain ⟨c'', hcondense, hlined, -, -⟩ := condense_paused hpaused hfinished
  rw [hcondense]
  exact hlined.fallOut hends htoken

theorem rounds_word {w : Symbol} {r? : Option Reuse} (h : c.Lined [.on f]) (hbest : c.best? = none)
    (hfinished : c.finished < versionLimit) (hfar : c.offset 0 = far)
    (hnext : c.nextToken 0 = (token, { c with latest? := r? })) (hword : token.label = .token w)
    (hsoft : w.isSoft = false) (hend : w ≠ .endOfFile) (hrefuses : f.Refuses w) (hlimit : 2 ≤ limit)
    (fuel : Nat) :
    ∃ c', rounds limit (fuel + 1) c far = rounds limit fuel c' far ∧
      (∀ L : Law, [L.Stable] → c.Ready L → c'.Ready L) ∧ Idle { c with latest? := r? } c' ∧
      Parted token f (c.top 0).mark c' := by
  have hsymbol : token.symbol? = some w := by simp [Tree.symbol?, hword]
  obtain ⟨m, hm⟩ : ∃ m, limit = m + 2 := ⟨limit - 2, by omega⟩
  obtain ⟨c₁, hread, hpaused, hidle, htop⟩ := readOn_pauses h hnext hsymbol
    hrefuses.actions hsoft hrefuses.inStep (by omega : 0 < limit) m far
  rw [← hm, hfar, Nat.max_self] at hread
  obtain ⟨c₂, hcondense, hlined, hidle', hmark⟩ := condense_paused hpaused (hidle.finished ▸ hfinished)
  obtain ⟨hfall, hparted⟩ := fallOut_word hlined hrefuses hword hend
    (hidle'.best.trans (hidle.best.trans hbest))
  have hall := readAll_one h.size hlimit hread hpaused.size
  have hnone : (c₂.fallOut 0 token).best? = none :=
    hfall.best.trans (hidle'.best.trans (hidle.best.trans hbest))
  refine ⟨c₁.condense.1, ?_, fun L _ hready => ?_, ?_, ?_⟩
  · rw [rounds, hall]
    dsimp only
    rw [hcondense, hnone, hpaused.size]
    simp
  · have := condense_ready (readAll_ready limit limit far hready (v := 0))
    rwa [hall] at this
  · rw [hcondense]
    exact (hidle.trans hidle').trans hfall
  · rw [hcondense]
    rw [hmark, htop] at hparted
    exact hparted

/-- The token that was read last stands before another offset. -/
def Anew (c : Contest) (a : Nat) : Prop := ∀ r ∈ c.latest?, r.offset ≠ a

theorem nextToken_anew {isKeyword : Bool} (h : c.Anew (c.offset v))
    (hread : readToken (c.top v).state (c.top v).mark = (token, isKeyword)) :
    c.nextToken v =
      (token, { c with latest? := some ⟨c.offset v, token, (c.top v).state, isKeyword⟩ }) := by
  unfold nextToken
  dsimp only
  rw [hread]
  cases hlatest : c.latest? with
  | none => rfl
  | some r =>
    have hne := h r hlatest
    dsimp only
    rw [if_neg (by simp [show r.offset ≠ (c.top v).mark.offset from hne])]
    rfl

theorem readOn_lost {c₀ : Contest} {n : Nat} (h : c.Ready (k.law false)) (hv : c.IsAt 0 (c.offset 0))
    (hnext : c.nextToken 0 = (token, c₀)) (htoken : token.label = .token .endOfFile)
    (hlost : (c₀.top 0).state = lost) (hstuck : c₀.Stuck 0 n) (hlimit : 0 < limit) :
    (readOn limit limit c 0 far).1.Ready (k.law true) := by
  obtain ⟨m, rfl⟩ : ∃ m, limit = m + 1 := ⟨limit - 1, by omega⟩
  obtain ⟨hproceeds, hisToken⟩ := nextToken_isToken h 0
  rw [hnext] at hproceeds hisToken
  have hhas := act_has (m + 1) hproceeds.ready (hv.extends h.toSound hproceeds.toExtends hv.lt) hisToken
  have hsymbol : token.symbol? = some .endOfFile := by simp [Tree.symbol?, htoken]
  have hactions : actions lost .endOfFile = [.recover] := by decide
  have hact : act (m + 1) c₀ 0 token = c₀.recover 0 token := by
    simp [act, hlost, hsymbol, hactions, allRulesOf, reduceAll, lastStep?]
  have hfound : (act (m + 1) c₀ 0 token).best?.isSome = true := by
    rw [hact]
    exact hstuck.recover htoken
  rw [readOn, if_neg (by simp [hv.status, Status.isActive]), hnext]
  dsimp only
  split
  · exact hhas.1.found hfound
  · exact readOn_ready _ _ _ ⟨hhas.1.found hfound, hhas.2⟩

/-- A version that is out of step behind a word finds a tree in the next round. -/
theorem rounds_astray {m : Mark} (h : c.Ready (k.law false)) (hastray : c.Astray 0 m)
    (hsize : c.versions.size ≤ 2) (hrest : m.rest = []) (hpos : 0 < m.offset)
    (hanew : c.Anew m.offset) (hlimit : 0 < limit) (fuel : Nat) :
    (rounds limit (fuel + 1) c far).Ready (k.law true) := by
  have ⟨i, hhead, hi, hlone, hstate, hmark⟩ := hastray
  obtain ⟨-, htop, hstatus⟩ := version_of_head hhead
  have hv := lt_size_of_head hhead
  have hplace : c.top 0 = c.places.place i := by rw [Contest.top, htop]
  have hoffset : c.offset 0 = m.offset := by rw [Contest.offset, hplace, hmark]
  have htoken : readToken (c.top 0).state (c.top 0).mark = (m.token .endOfFile [] [], false) := by
    rw [hplace, hstate, hmark]
    exact readToken_blanks (by decide +kernel) hrest hpos (List.forall_mem_nil _) fun _ => rfl
  have hnext := nextToken_anew (hoffset.symm ▸ hanew) htoken
  have hon : (readOn limit limit c 0 far).1.Ready (k.law true) := by
    refine readOn_lost (n := 1) h (isAt_of_isActive hv (by rw [hstatus]; rfl)) hnext rfl ?_ ?_ hlimit
    · rw [← hstate, ← hplace]
      rfl
    · refine ⟨i, hhead, hi, hlone.narrow, ?_⟩
      show c.versions.size + 1 ≤ versionLimit
      rw [versionLimit]
      omega
  obtain ⟨n, hn⟩ : ∃ n, limit = n + 1 := ⟨limit - 1, by omega⟩
  refine rounds_found fuel (condense_ready ?_)
  have hall : readAll limit limit c 0 far =
      readAll limit n (readOn limit limit c 0 far).1 1 (readOn limit limit c 0 far).2 := by
    conv_lhs => rw [hn, readAll, if_neg (by omega)]
    rw [← hn]
  rw [hall]
  exact readAll_ready _ _ _ hon

theorem condense_halted {i : Nat} (hsize : c.versions.size = 2) (hhalted : c.head? 0 = some (i, .halted))
    (hstands : c.Stands 1 (.on f)) :
    c.condense.1.Lined [.on f] ∧ c.Idle c.condense.1 ∧
      (c.condense.1.top 0).mark = (c.top 1).mark := by
  obtain ⟨x, y, hxy⟩ : ∃ x y, c.versions = #[x, y] := by
    obtain ⟨x, y, hxy⟩ := List.length_eq_two.mp (show c.versions.toList.length = 2 from hsize)
    exact ⟨x, y, Array.toList_inj.mp hxy⟩
  obtain ⟨j, hhead, hj, hon⟩ := hstands
  obtain ⟨-, -, hx⟩ := version_of_head hhalted
  obtain ⟨-, htop, hy⟩ := version_of_head hhead
  have hversions : c.version 0 = x ∧ c.version 1 = y := by simp [Contest.version, hxy]
  rw [hversions.1] at hx
  rw [hversions.2] at htop hy
  let z : Version := { y with settled := min y.settled (c.places.place j).shown }
  have hcondense : c.condense.1 = { c with versions := #[z] } := by
    simp [condense, hxy, siftAll, Contest.version, hx, hy, Status.isHalted, removeVersion, settle,
      setVersion, sift, resume, versionLimit, Contest.top, htop, z]
  have hleft : c.condense.1.head? 0 = some (j, .active) := by
    rw [hcondense, ← htop, ← hy]
    rfl
  have hidle : c.Idle c.condense.1 := by
    rw [hcondense]
    exact ⟨rfl, rfl, rfl, .refl _⟩
  refine ⟨Stands.lined ⟨j, hleft, ?_, ?_⟩ ?_, hidle, ?_⟩
  · rw [hcondense]
    exact hj
  · rw [hcondense]
    exact hon
  · rw [hcondense]
    rfl
  · rw [Contest.top, (version_of_head hleft).2.1, Contest.top, hversions.2, htop, hcondense]

theorem rounds_back {q : State} {w : Symbol} {r? : Option Reuse} {i : Nat}
    (hsize : c.versions.size = 2) (hhalted : c.head? 0 = some (i, .halted))
    (hstands : c.Stands 1 (.on f)) (hbest : c.best? = none)
    (hnext : c.nextToken 1 = (token, { c with latest? := r? })) (hword : token.symbol? = some w)
    (hextra : token.extra = false) (hactions : actions f.state w = [.shift q])
    (hfar : far < token.stop.offset) (hlimit : 3 ≤ limit) (fuel : Nat) :
    ∃ c', rounds limit (fuel + 1) c far = rounds limit fuel c' token.stop.offset ∧
      (∀ L : Law, [L.Stable] → c.Ready L → c'.Ready L) ∧ c'.Lined [.on ((q, false) :: f)] ∧
      (c'.top 0).mark = token.stop ∧ c'.latest? = r? ∧ c'.best? = none ∧
      c'.finished = c.finished := by
  obtain ⟨n, hn⟩ : ∃ n, limit = n + 3 := ⟨limit - 3, by omega⟩
  obtain ⟨j, hhead, -⟩ := id hstands
  have hactive := (version_of_head hhead).2.2
  have herror := Tree.isError_of_symbol? hword
  let c₀ : Contest := { c with latest? := r? }
  let c₁ := c₀.push 1 (some token) q
  obtain ⟨hpushed, hmark⟩ := Stands.push (c := c₀) (t := token) hstands (fun _ => herror) q
  have hact : act limit c₀ 1 token = c₁ := by
    have hstate : (c₀.top 1).state = f.state := Stands.state (c := c₀) hstands
    simp [hn, act, hstate, hword, hactions, allRulesOf, reduceAll, lastStep?, c₁]
  have hfirst : readOn limit limit c 0 far = (c, far) := by
    conv_lhs => rw [hn, readOn]
    rw [if_pos (by simp [(version_of_head hhalted).2.2, Status.isActive])]
  have hsecond : readOn limit limit c 1 far = (c₁, token.stop.offset) := by
    have hoffset : c₁.offset 1 = token.stop.offset := by rw [Contest.offset, hmark]
    conv_lhs => arg 2; rw [hn]
    rw [readOn, if_neg (by simp [hactive, Status.isActive]), hnext]
    dsimp only
    rw [hact, hoffset, herror]
    simp [hfar]
  have hcount : c₁.versions.size = 2 := (size_push ..).trans hsize
  have hall : readAll limit limit c 0 far = (c₁, token.stop.offset) := by
    conv_lhs => arg 2; rw [hn]
    rw [readAll, if_neg (by omega), hfirst]
    dsimp only
    rw [readAll, if_neg (by omega), hsecond]
    dsimp only
    rw [readAll, if_pos (by omega)]
  have hstill : c₁.head? 0 = some (i, .halted) :=
    (head?_push_of_ne (by decide) _ q).trans hhalted
  obtain ⟨hlined, hidle, htop⟩ := condense_halted hcount hstill hpushed
  have hnone : c₁.condense.1.best? = none := hidle.best.trans hbest
  refine ⟨c₁.condense.1, ?_, fun L _ hready => ?_, ?_, ?_, ?_, hnone, ?_⟩
  · rw [rounds, hall]
    dsimp only
    rw [hnone, hcount]
    simp
  · have := condense_ready (readAll_ready limit limit far hready (v := 0))
    rwa [hall] at this
  · rw [← hextra]
    exact hlined
  · rw [htop, hmark]
  · exact hidle.latest
  · exact hidle.finished

end Contest

end ImportGroups.Source
