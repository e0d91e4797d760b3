import ImportGroups.Proofs.Truncation.Remnants
import Mathlib.Data.List.Infix

/-!
Where the reading of an open block halts.

The source ends, behind blanks at most, or a reserved word stands at its end. In both cases the reading
finds a tree of the whole source.
-/

namespace ImportGroups.Source

open Automaton (lost actions)
open Text (Bytes)

namespace Column

variable {L : Law} {places : Stacks} {start : Mark} {i : Nat} {k : Column}

theorem headD_states (k : Column) : k.states.headD Automaton.initial = k.state := by
  cases k <;> rfl

theorem Stands.leads {q : State} {t : Tree} (h : Stands places start i ((q, t) :: k))
    (hopen : places.Open L i) :
    ∃ j, (places.place i).links = [⟨j, some t⟩] ∧ j < i ∧ k.Stands places start j ∧
      places.Open L j ∧ Leads L (places.place j).stand (places.place i).stand (some t) := by
  obtain ⟨p, j, hp, -, -, hlinks, hj, hbelow⟩ := h
  have hplace : places.place i = p := by simp [Stacks.place, hp]
  have hlinks' : (places.place i).links = [⟨j, some t⟩] := hplace ▸ hlinks
  obtain ⟨-, hall⟩ := Stacks.closed_open L places i hopen
  obtain ⟨hopen', hleads⟩ := hall ⟨j, some t⟩ (hlinks' ▸ List.mem_singleton_self _)
  exact ⟨j, hlinks', hj, hbelow, hopen', hleads⟩

theorem Stands.climb {q : State} {t : Tree} (h : Stands places start i ((q, t) :: k))
    (hopen : places.Open L i) (hclimbs : Footing.climbs (states ((q, t) :: k)) = true) :
    t.extra = false ∧ t.isError = false ∧ t.label ≠ .token .rightParen ∧
      Footing.climbs k.states = true := by
  obtain ⟨j, -, -, hbelow, -, hleads⟩ := h.leads hopen
  simp only [states_cons, Footing.climbs, Bool.and_eq_true, bne_iff_ne, headD_states] at hclimbs
  obtain ⟨⟨⟨hlost, hne⟩, hparen⟩, hclimbs⟩ := hclimbs
  have hstate : (places.place i).state = q := h.place.1
  have hpart : IsPart k.state q t := by
    have hpart := hleads.1.resolve_right fun hextra => hne ?_
    · rwa [Place.stand, Place.stand, hbelow.place.1, hstate] at hpart
    · rw [← hstate, ← hbelow.place.1]
      exact hextra.2
  refine ⟨hpart.extra, ?_, fun hlabel => hparen ?_, hclimbs⟩
  · rw [Bool.eq_false_iff]
    exact fun herror => Tree.not_isLeft_of_part hpart hlost (.inl (by simpa [Tree.isError] using herror))
  · rw [hpart.state, hlabel]
    rfl

theorem Stands.standsOn (h : k.Stands places start i) (hopen : places.Open L i)
    (hclimbs : Footing.climbs k.states = true) : places.StandsOn i (.ofStates k.states) := by
  induction k generalizing i with
  | nil =>
    obtain ⟨p, hp, hstate, -, hlinks⟩ := h
    have hplace : places.place i = p := by simp [Stacks.place, hp]
    exact .bottom (hplace ▸ hstate) (hplace ▸ hlinks)
  | cons x k ih =>
    obtain ⟨q, t⟩ := x
    obtain ⟨j, hlinks, hj, hbelow, hopen', -⟩ := h.leads hopen
    obtain ⟨hextra, herror, -, hclimbs⟩ := h.climb hopen hclimbs
    have hled : places.LedBy i j t := ⟨hlinks, hj, h.place.2, fun _ => herror⟩
    have habove := Stacks.StandsOn.above hled (ih hbelow hopen' hclimbs)
    rw [h.place.1, hextra] at habove
    exact habove

end Column

namespace Column

variable {L : Law} {cut : Cut} {places : Stacks} {start : Mark} {i : Nat} {k : Column}

def Keeps (cut : Cut) (start : Mark) : Column → Prop
  | [] => True
  | (_, t) :: k => cut.Keeps ⟨state k, (mark start k).offset⟩ t ∧ Keeps cut start k

theorem Stands.stand (h : k.Stands places start i) :
    (places.place i).stand = ⟨k.state, (k.mark start).offset⟩ := by
  rw [Place.stand, h.place.1, h.place.2]

theorem Stands.bottom (h : k.Stands places start i) :
    ∃ j < places.size, (places.place j).links = [] := by
  induction k generalizing i with
  | nil =>
    have hi := h.lt_size
    obtain ⟨p, hp, -, -, hlinks⟩ := h
    exact ⟨i, hi, by simp [Stacks.place, hp, hlinks]⟩
  | cons x k ih =>
    obtain ⟨_, j, -, -, -, -, -, hbelow⟩ := h
    exact ih hbelow

theorem Stands.open_law (h : k.Stands places start i) (hopen : places.Open (.plain cut.src) i)
    (hkeeps : k.Keeps cut start) : places.Open (cut.law false) i := by
  induction k generalizing i with
  | nil =>
    have hi := h.lt_size
    obtain ⟨p, hp, -, -, hlinks⟩ := h
    exact Stacks.open_of_links hi (by simp [Stacks.place, hp, hlinks])
  | cons x k ih =>
    obtain ⟨j, hlinks, -, hbelow, hopen', hleads⟩ := h.leads hopen
    refine Stacks.open_of_links h.lt_size ?_
    rw [hlinks, List.forall_mem_singleton]
    refine ⟨ih hbelow hopen' hkeeps.2, hleads.1, ?_⟩
    rw [hbelow.stand]
    exact hkeeps.1

theorem Stands.keeps_append {top : Column} (h : Stands places start i (top ++ k))
    (hplaces : places.Sound cut.src) (hopen : places.Open L i)
    (hclimbs : Footing.climbs (states (top ++ k)) = true) (hkeeps : k.Keeps cut start)
    (hbehind : cut.behind < (k.mark start).offset) :
    Keeps cut start (top ++ k) ∧ cut.behind < (mark start (top ++ k)).offset := by
  induction top generalizing i with
  | nil => exact ⟨hkeeps, hbehind⟩
  | cons x top ih =>
    obtain ⟨q, t⟩ := x
    obtain ⟨j, hlinks, -, (hbelow : Stands places start j (top ++ k)), hopen', -⟩ := h.leads hopen
    obtain ⟨-, -, hparen, hclimbs⟩ := h.climb hopen hclimbs
    obtain ⟨hall, hlt⟩ := ih hbelow hopen' hclimbs
    have hspans : Spans cut.src _ _ t :=
      hplaces.joins i h.lt_size ⟨j, some t⟩ (hlinks ▸ List.mem_singleton_self _)
    rw [hbelow.stand] at hspans
    have hstart : (mark start (top ++ k)).offset ≤ t.start.offset := hspans.start
    have hstop := hspans.sound.between.le
    refine ⟨⟨Cut.keeps_of_behind hlt fun hlabel => absurd hlabel hparen, hall⟩, ?_⟩
    show cut.behind < t.stop.offset
    omega

end Column

/-- A reading with one version keeps the law if the trees up to the open block do. -/
theorem Single.ready {cut : Cut} {start : Mark} {c : Contest} {top k : Column}
    (h : Single start c (top ++ k)) (hready : c.Ready (.plain cut.src))
    (hclimbs : Footing.climbs (Column.states (top ++ k)) = true) (hkeeps : k.Keeps cut start)
    (hbehind : cut.behind < (k.mark start).offset)
    (hfront : cut.front ≤ (Column.mark start (top ++ k)).offset) : c.Ready (cut.law false) := by
  obtain ⟨i, hversions, hstands⟩ := h.version
  have hmem : ({ top := i } : Version) ∈ c.versions := by simp [hversions]
  have hfits := hready.versions _ hmem
  obtain ⟨hall, -⟩ := hstands.keeps_append hready.places (hfits.isOpen rfl) hclimbs hkeeps hbehind
  obtain ⟨j, hj, hlinks⟩ := hstands.bottom
  obtain rfl := hready.places.root j hj hlinks
  refine ⟨⟨hready.places, Stacks.open_of_links hj (by simp [hlinks]), ?_, ?_, hready.latest⟩, ?_⟩
  · intro v hv
    obtain rfl : v = { top := i } := by simpa [hversions] using hv
    exact ⟨hfits.top, fun hactive => hstands.open_law (hfits.isOpen hactive) hall, nofun⟩
  · rw [h.unfinished]
    exact ⟨nofun, nofun⟩
  · intro u x hx hactive
    have hversion : c.versions[u]? = some { top := i } := by
      obtain ⟨y, hy, -⟩ := Option.map_eq_some_iff.mp hx
      rw [hy]
      have := Array.mem_of_getElem? hy
      simpa [hversions] using this
    rw [Contest.head?, hversion] at hx
    obtain rfl := Option.some.inj hx
    show cut.front ≤ (c.places.place i).mark.offset
    rw [hstands.place.2]
    exact hfront

variable {start : Mark} {k : Column} {slot : Slot}

/-- On a column of an open block nothing but blanks is left of the source. -/
structure Ended (start : Mark) (slot : Slot) (k : Column) : Prop where
  states : ∃ top ∈ slot.remnants, k.states = top ++ slot.column
  blank : ∀ b ∈ (k.mark start).rest, blankIn (Automaton.mode k.state) b = true
  string : Automaton.mode k.state = 9 → (k.mark start).rest = []
  pos : 0 < (k.mark start).offset

/-- Where a spec may start, a reserved word is all that is left of the source. -/
structure Barred (start : Mark) (slot : Slot) (k : Column) (w word : Bytes) : Prop where
  states : k.states = slot.column
  rest : (k.mark start).rest = w ++ word
  blank : ∀ b ∈ w, isBlankByte b = true
  isWord : isWord word = true
  reserved : ∃ x ∈ Symbol.reservedWords, Symbol.ofWord? word = some x.2
  pos : 0 < (k.mark start).offset

inductive Halts (start : Mark) (slot : Slot) (k : Column) : Prop where
  | ended : Ended start slot k → Halts start slot k
  /-- Behind a backquote a content without text is read first. -/
  | empty {k' : Column} : Takes start ((k.mark start).token .rawContent [] []) 0 k k' →
      Automaton.admits k'.state .rawContent = false → Ended start slot k' → Halts start slot k
  | barred {w word : Bytes} : Barred start slot k w word → Halts start slot k

theorem Ended.waits (h : Ended start slot k) (hslot : slot ≠ .alone) :
    (Footing.ofStates k.states).waits = true ∧ Footing.climbs k.states = true := by
  obtain ⟨top, htop, hstates⟩ := h.states
  rw [hstates]
  exact Slot.remnant_entries hslot top htop

theorem Column.state_ofStates (k : Column) : (Footing.ofStates k.states).state = k.state := by
  rw [Footing.state_ofStates, headD_states]

theorem Ended.readToken (h : Ended start slot k) (hslot : slot ≠ .alone) :
    readToken k.state (k.mark start) =
      ((k.mark start).token .endOfFile (k.mark start).rest [], false) := by
  obtain ⟨⟨⟨hmode, -⟩, -⟩, -⟩ := Footing.waits_iff.mp (h.waits hslot).1
  rw [k.state_ofStates] at hmode
  exact readToken_blanks hmode rfl h.pos h.blank h.string

namespace Contest

variable {cut : Cut} {L : Law} {c : Contest} {f : Footing} {token : Tree} {limit far : Nat}

theorem lined_of_single (h : Single start c k) (hready : c.Ready L)
    (hclimbs : Footing.climbs k.states = true) : c.Lined [.on (.ofStates k.states)] := by
  obtain ⟨i, hversions, hstands⟩ := h.version
  have hfits := hready.versions { top := i } (by simp [hversions])
  have hhead : c.head? 0 = some (i, .active) := by simp [head?, hversions, Version.head]
  exact Stands.lined ⟨i, hhead, hstands.lt_size, hstands.standsOn (hfits.isOpen rfl) hclimbs⟩ h.size

/-- The only version comes to the end of the source and finds a tree of the whole there. -/
theorem rounds_waits {c₁ : Contest} {r? : Option Reuse} {n : Nat} (hready : c.Ready (cut.law false))
    (hsize : c.versions.size = 1)
    (hon : readOn limit limit c 0 far = readOn limit (n + 2) c₁ 0 far) (hlined : c₁.Lined [.on f])
    (hwaits : f.waits = true) (hnext : c₁.nextToken 0 = (token, { c₁ with latest? := r? }))
    (htoken : token.label = .token .endOfFile) (hfinished : c₁.finished = 0) (hlimit : 2 ≤ limit)
    (fuel : Nat) : (rounds limit (fuel + 1) c far).Ready (cut.law true) := by
  obtain ⟨⟨⟨-, hactions⟩, hlost⟩, hends⟩ := Footing.waits_iff.mp hwaits
  have hsymbol : token.symbol? = some .endOfFile := by simp [Tree.symbol?, htoken]
  obtain ⟨c', hread, hpaused, hidle, -⟩ := readOn_pauses hlined hnext hsymbol hactions
    (by decide) hlost (by omega : 0 < limit) n far
  refine rounds_end hready hsize hlimit (hon.trans hread) hpaused htoken hends ?_ fuel
  rw [hidle.finished]
  show c₁.finished < versionLimit
  rw [hfinished]
  decide

theorem rounds_ended (h : Ended start slot k) (hslot : slot ≠ .alone) (hsingle : Single start c k)
    (hfresh : Fresh start c k) (hready : c.Ready (cut.law false)) (hlimit : 2 ≤ limit) (fuel : Nat) :
    (rounds limit (fuel + 1) c far).Ready (cut.law true) := by
  obtain ⟨hwaits, hclimbs⟩ := h.waits hslot
  obtain ⟨n, hn⟩ : ∃ n, limit = n + 2 := ⟨limit - 2, by omega⟩
  exact rounds_waits hready hsingle.size (by rw [← hn]) (lined_of_single hsingle hready hclimbs) hwaits
    (nextToken_of_fresh hsingle hfresh (h.readToken hslot)) rfl hsingle.finished hlimit fuel

theorem rounds_empty {k' : Column} (htakes : Takes start ((k.mark start).token .rawContent [] []) 0 k k')
    (hadmits : Automaton.admits k'.state .rawContent = false) (h : Ended start slot k')
    (hslot : slot ≠ .alone) (hsingle : Single start c k) (hfresh : Fresh start c k)
    (hready : c.Ready (cut.law false)) (hlimit : 3 ≤ limit) (fuel : Nat) :
    (rounds limit (fuel + 1) c (k.mark start).offset).Ready (cut.law true) := by
  obtain ⟨c₁, isKeyword, hsingle₁, hlatest₁, hread⟩ :=
    readOn_takes htakes hsingle hfresh (by omega : 0 < limit)
  have hpos := h.pos
  rw [htakes.mark] at hpos
  have hready₁ : c₁.Ready (cut.law false) := by
    have hon := readOn_ready limit 1 0 ⟨hready, (hsingle.size.symm ▸ Nat.one_pos : 0 < c.versions.size)⟩
    rwa [hread, if_pos hpos] at hon
  have hfresh₁ : Fresh start c₁ k' := by
    intro r hr
    rw [hlatest₁, Option.some.injEq] at hr
    subst hr
    exact .inr (Reuse.not_holdsIn rfl hadmits)
  obtain ⟨hwaits, hclimbs⟩ := h.waits hslot
  obtain ⟨n, hn⟩ : ∃ n, limit = n + 2 + 1 := ⟨limit - 3, by omega⟩
  have hon : readOn limit limit c 0 (k.mark start).offset =
      readOn limit (n + 2) c₁ 0 (k.mark start).offset := by
    conv_lhs => arg 2; rw [hn]
    rw [hread, Mark.token_stop, Mark.past_nil, Mark.past_nil, if_neg (Nat.lt_irrefl _)]
  exact rounds_waits hready hsingle.size hon (lined_of_single hsingle₁ hready₁ hclimbs) hwaits
    (nextToken_of_fresh hsingle₁ hfresh₁ (h.readToken hslot)) rfl hsingle₁.finished (by omega) fuel

theorem nextToken_again {r : Reuse} {isKeyword : Bool} {v : Nat} (hlatest : c.latest? = some r)
    (htoken : r.token = token)
    (hread : readToken (c.top v).state (c.top v).mark = (token, isKeyword)) :
    ∃ r', c.nextToken v = (token, { c with latest? := some r' }) ∧ r'.offset = c.offset v := by
  unfold nextToken
  dsimp only
  rw [hlatest, hread]
  dsimp only
  split
  · rename_i hholds
    have hoffset : r.offset = (c.top v).mark.offset := by
      simpa using (Bool.and_eq_true_iff.mp hholds).1
    exact ⟨r, by rw [htoken, ← hlatest], hoffset⟩
  · exact ⟨_, rfl, rfl⟩

end Contest

theorem isWordByte_of_mem {word : Bytes} {b : UInt8} (h : isWord word = true) (hb : b ∈ word) :
    isWordByte b = true := by
  cases word with
  | nil => cases hb
  | cons a bs =>
    simp only [isWord, Bool.and_eq_true, List.all_eq_true] at h
    rcases List.mem_cons.mp hb with rfl | hb
    · simp [isWordByte, h.1]
    · exact h.2 b hb

theorem Slot.state_column (slot : Slot) : slot.column.headD Automaton.initial = slot.state := by
  cases slot <;> rfl

theorem isReserved_of_mem {x : String × Symbol} (hx : x ∈ Symbol.reservedWords) :
    x.2.isReserved = true ∧ x.2.isSoft = false ∧ x.2 ≠ .endOfFile := by
  have hall : ∀ x ∈ Symbol.reservedWords,
      x.2.isReserved = true ∧ x.2.isSoft = false ∧ x.2 ≠ .endOfFile := by decide
  exact hall x hx

namespace Slot

theorem wordSymbol_reserved {word : Bytes} {x : String × Symbol} (slot : Slot)
    (hx : x ∈ Symbol.reservedWords) (hword : Symbol.ofWord? word = some x.2) :
    wordSymbol slot.state word = x.2 := by
  have hshift : actions slot.state .identifier = [.shift slot.named] :=
    slot.actions_shift (by simp [Slot.shifts])
  have hname : Automaton.admits slot.state .identifier = true := by simp [Automaton.admits, hshift]
  have hlost : slot.state ≠ lost := by cases slot <;> decide
  simp [wordSymbol, hword, hname, (isReserved_of_mem hx).1, hlost]

theorem refuses_reserved {x : String × Symbol} {slot : Slot} (hslot : slot ≠ .alone)
    (hx : x ∈ Symbol.reservedWords) : (Footing.ofStates slot.column).Refuses x.2 := by
  have hstate : (Footing.ofStates slot.column).state = slot.state := by
    rw [Footing.state_ofStates, slot.state_column]
  obtain ⟨hlost, htakes, hformable, hwords⟩ := word_entries hslot
  obtain ⟨hactions, hmissing⟩ := hwords x hx
  refine ⟨by simp [Footing.ofStates], ?_, ?_, ?_, ?_, ?_⟩ <;> rw [hstate]
  · exact hlost
  · exact htakes
  · exact hformable
  · exact hactions
  · exact hmissing

end Slot

namespace Barred

variable {w word : Bytes}

theorem state (h : Barred start slot k w word) : k.state = slot.state := by
  rw [← k.headD_states, h.states, slot.state_column]

theorem climbs (h : Barred start slot k w word) (hslot : slot ≠ .alone) :
    Footing.climbs k.states = true := by
  have hnone : [] ∈ slot.remnants := by simp [Slot.remnants, Slot.aliases, Slot.literals]
  rw [h.states]
  exact (Slot.remnant_entries hslot [] hnone).2

theorem readToken {q : State} {t : Symbol} (h : Barred start slot k w word)
    (hmode : Automaton.mode q ∈ [1, 3]) (hsymbol : wordSymbol q word = t) :
    ∃ isKeyword, Source.readToken q (k.mark start) = ((k.mark start).token t w word, isKeyword) := by
  have hsets : ∀ mode ∈ [1, 3], (modeSymbols mode).contains .identifier = true ∧
      (modeSymbols mode).contains .newline = false := by decide
  obtain ⟨hset, hline⟩ := hsets _ hmode
  rw [← hsymbol]
  have hrest : (k.mark start).rest = w ++ (word ++ []) := by rw [List.append_nil, h.rest]
  refine readToken_word hrest (Mark.skipByteOrderMark_of_pos h.pos) (tightSymbolAt?_eq_none ?_ _) hset
    (fun b hb => (blankIn_eq hline b).trans (h.blank b hb)) h.isWord (by simp)
  simp only [List.mem_cons, List.not_mem_nil, or_false] at hmode ⊢
  omega

end Barred

namespace Halts

theorem climbs (h : Halts start slot k) (hslot : slot ≠ .alone) : Footing.climbs k.states = true := by
  cases h with
  | ended h => exact (h.waits hslot).2
  | empty htakes _ h =>
    obtain ⟨t, target, k₁, -, hforms, -, rfl⟩ := htakes.takes
    cases hforms
    have hclimbs := (h.waits hslot).2
    simp only [Column.states_cons, Footing.climbs, Bool.and_eq_true] at hclimbs
    exact hclimbs.2
  | barred h => exact h.climbs hslot

theorem unclosed (h : Halts start slot k) : ∀ b ∈ (k.mark start).rest, b ≠ 0x29 := by
  have hblank : ∀ b, isBlankByte b = true → b ≠ 0x29 := by
    rintro b hb rfl
    exact absurd hb (by decide)
  have hended : ∀ {k' : Column}, Ended start slot k' → ∀ b ∈ (k'.mark start).rest, b ≠ 0x29 :=
    fun h b hb => hblank b (Bool.and_eq_true_iff.mp (h.blank b hb)).1
  cases h with
  | ended h => exact hended h
  | empty htakes _ h =>
    have hrest := hended h
    rwa [htakes.mark] at hrest
  | barred h =>
    intro b hb
    rw [h.rest] at hb
    rcases List.mem_append.mp hb with hb | hb
    · exact hblank b (h.blank b hb)
    · rintro rfl
      exact absurd (isWordByte_of_mem h.isWord hb) (by decide)

end Halts

namespace Contest

variable {cut : Cut} {c : Contest} {limit far : Nat} {w word : Bytes}

/-- Before a reserved word that does not fit the only version skips it, or goes back to where it fits. -/
theorem rounds_barred (h : Barred start slot k w word) (hslot : slot ≠ .alone)
    (hsingle : Single start c k) (hfresh : Fresh start c k) (hready : c.Ready (cut.law false))
    (hlimit : 3 ≤ limit) (fuel : Nat) :
    (rounds limit (fuel + 3) c (k.mark start).offset).Ready (cut.law true) := by
  obtain ⟨x, hx, hword⟩ := h.reserved
  obtain ⟨-, hsoft, hend⟩ := isReserved_of_mem hx
  let token := (k.mark start).token x.2 w word
  have hrest : (k.mark start).rest = w ++ (word ++ []) := by rw [List.append_nil, h.rest]
  have hne : word ≠ [] := by
    rintro rfl
    simpa [isWord] using h.isWord
  have hlt : (k.mark start).offset < token.stop.offset := Mark.offset_lt_token hrest hne
  have hstop : token.stop.rest = [] := Mark.rest_token hrest
  have hpos : 0 < token.stop.offset := Nat.zero_lt_of_lt hlt
  obtain ⟨isKeyword, hread⟩ := h.readToken (q := k.state) (t := x.2)
    (by rw [h.state, slot.outset.1]; decide) (by rw [h.state, slot.wordSymbol_reserved hx hword])
  have hlined := lined_of_single hsingle hready (h.climbs hslot)
  rw [h.states] at hlined
  obtain ⟨c', hrounds, hkept, hidle, hparted⟩ := rounds_word hlined hsingle.unfinished
    (hsingle.finished.symm ▸ (by decide)) hsingle.offset (nextToken_of_fresh hsingle hfresh hread) rfl
    hsoft hend (Slot.refuses_reserved hslot hx) (by omega : 2 ≤ limit) (fuel + 2)
  have hanew : c'.Anew token.stop.offset := by
    intro r hr
    rw [hidle.latest, Option.mem_some_iff] at hr
    subst hr
    exact Nat.ne_of_lt hlt
  rw [hrounds]
  rcases hparted.cases with hastray | ⟨⟨i, hhalted⟩, hsize, hmark, g, hg, hfits, hstands⟩
  · exact rounds_astray (hkept _ hready) hastray hparted.size hstop hpos hanew (by omega) (fuel + 1)
  · have hadmits : Automaton.admits g.state x.2 = true := by simpa [Tree.fits] using hfits
    have hback : g ∈ [[(7, false)], []] := by
      refine (slot.back_entries g ((List.mem_tails _ _).mpr hg)).resolve_right fun hnone => ?_
      rw [hnone x hx] at hadmits
      cases hadmits
    obtain ⟨hmode, hactions, hwaits⟩ := Slot.resume_entries hback hx hadmits
    rw [hsingle.mark] at hmark
    obtain ⟨isKeyword', hread'⟩ := h.readToken (q := g.state) (by rw [hmode]; decide)
      (wordSymbol_of_actions hword hactions)
    have hstate : (c'.top 1).state = g.state := hstands.state
    obtain ⟨r, hnext, hoffset⟩ := nextToken_again hidle.latest rfl
      (by rw [hstate, hmark]; exact hread')
    rw [Contest.offset, hmark] at hoffset
    obtain ⟨c'', hrounds', hkept', hlined', hmark', hlatest', -, hfinished'⟩ :=
      rounds_back hsize hhalted hstands (hidle.best.trans hsingle.unfinished) hnext rfl rfl hactions
        hlt hlimit (fuel + 1)
    have hanew' : c''.Anew (c''.offset 0) := by
      intro r' hr'
      rw [hlatest', Option.mem_some_iff] at hr'
      subst hr'
      rw [Contest.offset, hmark', hoffset]
      exact Nat.ne_of_lt hlt
    obtain ⟨⟨⟨hmode', -⟩, -⟩, -⟩ := Footing.waits_iff.mp hwaits
    have hread'' : readToken (c''.top 0).state (c''.top 0).mark =
        (token.stop.token .endOfFile [] [], false) := by
      rw [(hlined'.stands 0 _ rfl).state, hmark']
      exact readToken_blanks hmode' hstop hpos (List.forall_mem_nil _) fun _ => rfl
    obtain ⟨n, hn⟩ : ∃ n, limit = n + 2 := ⟨limit - 2, by omega⟩
    rw [hrounds']
    exact rounds_waits (hkept' _ (hkept _ hready)) hlined'.size (by rw [← hn]) hlined' hwaits
      (nextToken_anew hanew' hread'') rfl
      (hfinished'.trans (hidle.finished.trans hsingle.finished)) (by omega) fuel

/-- From where the reading of an open block halts, it finds a tree by which the imports are unknown. -/
theorem rounds_halts (h : Halts start slot k) (hslot : slot ≠ .alone) (hsingle : Single start c k)
    (hfresh : Fresh start c k) (hready : c.Ready (cut.law false)) (hlimit : 3 ≤ limit) (fuel : Nat) :
    (rounds limit (fuel + 3) c (k.mark start).offset).Ready (cut.law true) := by
  cases h with
  | ended h => exact rounds_ended h hslot hsingle hfresh hready (by omega) (fuel + 2)
  | empty htakes hadmits h =>
    exact rounds_empty htakes hadmits h hslot hsingle hfresh hready hlimit (fuel + 2)
  | barred h => exact rounds_barred h hslot hsingle hfresh hready hlimit fuel

end Contest

end ImportGroups.Source
