import ImportGroups.Yaml.Node
import Mathlib.Tactic.SplitIfs

/-!
What the reading of a document depends on.

`Agrees` compares two readings: from related states they come to the same result and to related
states. Every reader of a part of a document is put together from steps that agree under each relation
which `Respected` describes: one that holds for states which differ in the version of the reader at
most, and that no step of a reading breaks.
-/

namespace ImportGroups.Yaml

variable {α β : Type} {R : ReadState → ReadState → Prop} {A : Token → Prop}

/-- From related states the reading comes to the same result, which satisfies `Q`, and to related
states. -/
def Agrees (R : ReadState → ReadState → Prop) (Q : α → Prop) (m : Read α) : Prop :=
  ∀ s s', R s s' → (m.run s').1 = (m.run s).1 ∧ R (m.run s).2 (m.run s').2 ∧
    ∀ a, (m.run s).1 = .ok a → Q a

theorem run_bind (m : Read β) (f : β → Read α) (s : ReadState) :
    (m >>= f).run s = match m.run s with
      | (.ok b, s₁) => (f b).run s₁
      | (.error e, s₁) => (.error e, s₁) := by
  show (match m.run s with | (r, s₁) => ExceptT.bindCont f r s₁) = _
  rcases m.run s with ⟨_ | b, s₁⟩ <;> rfl

theorem run_bind_ok {m : Read β} {f : β → Read α} {s s' : ReadState} {a : α}
    (h : (m >>= f).run s = (.ok a, s')) :
    ∃ b s₁, m.run s = (.ok b, s₁) ∧ (f b).run s₁ = (.ok a, s') := by
  rw [run_bind] at h
  rcases hm : m.run s with ⟨_ | b, s₁⟩
  · rw [hm] at h
    cases h
  · rw [hm] at h
    exact ⟨b, s₁, rfl, h⟩

namespace Agrees

variable {P : β → Prop} {Q : α → Prop}

theorem pure {a : α} (h : Q a) : Agrees R Q (pure a) := by
  intro s s' hs
  refine ⟨rfl, hs, fun b hb => ?_⟩
  cases hb
  exact h

theorem throw (e : LoadError) : Agrees R Q (throw e) := by
  intro s s' hs
  refine ⟨rfl, hs, fun b hb => ?_⟩
  cases hb

theorem fail : Agrees R Q Read.fail := throw _

theorem bind {m : Read β} {f : β → Read α} (hm : Agrees R P m)
    (hf : ∀ b, P b → Agrees R Q (f b)) : Agrees R Q (m >>= f) := by
  intro s s' hs
  obtain ⟨hresult, hafter, hP⟩ := hm s s' hs
  rw [run_bind, run_bind]
  rcases hm₁ : m.run s with ⟨r, s₁⟩
  rcases hm₂ : m.run s' with ⟨r', s₁'⟩
  rw [hm₁, hm₂] at hresult hafter
  rw [hm₁] at hP
  cases hresult
  cases r with
  | error e => exact ⟨rfl, hafter, by simp⟩
  | ok b => exact hf b (hP b rfl) s₁ s₁' hafter

theorem ite {c : Prop} [Decidable c] {m m' : Read α} (h : Agrees R Q m) (h' : Agrees R Q m') :
    Agrees R Q (if c then m else m') := by
  split
  · exact h
  · exact h'

/-- A step that is taken under a condition only, and what follows. -/
theorem guarded {c : Prop} [Decidable c] {m : Read Unit} {f : Unit → Read α}
    (hm : Agrees R (fun _ => True) m) (hf : ∀ u, Agrees R Q (f u)) :
    Agrees R Q (if c then m >>= f else f ()) :=
  ite (bind hm fun u _ => hf u) (hf ())

end Agrees

/-- A relation that the steps in front of a document and after it keep. -/
structure Steady (R : ReadState → ReadState → Prop) (A : Token → Prop) : Prop where
  view : ∀ {s s'}, R s s' → s' = { s with version? := s'.version? }
  ready : ∀ {s s' scan}, R s s' → s.scan.ready = .ok scan →
    R { s with scan } { s' with scan } ∧ A (scan.tokens.headD .streamEnd)
  take : ∀ {s s'}, R s s' → R { s with scan := s.scan.take } { s' with scan := s'.scan.take }
  handles : ∀ {s s'} handles, R s s' → R { s with handles } { s' with handles }
  adopt : ∀ {v}, A (.directive (.version v)) → Agrees R (fun _ => True) (adoptVersion (some v))

/-- A relation that the steps of a document keep, too. -/
structure Respected (R : ReadState → ReadState → Prop) (A : Token → Prop) : Prop
    extends Steady R A where
  nodes : ∀ {s s'} nodes, R s s' → R { s with nodes } { s' with nodes }
  anchors : ∀ {s s'} anchors, R s s' → R { s with anchors } { s' with anchors }

namespace Steady

open Read

variable (h : Steady R A)
include h

/-- A reading that looks at its state goes on as from a related one, if all that it sees of it is the
same in both. -/
theorem get {Q : α → Prop} {f : ReadState → Read α}
    (hf : ∀ s s', R s s' → s' = { s with version? := s'.version? } →
      ((f s').run s').1 = ((f s).run s).1 ∧ R ((f s).run s).2 ((f s').run s').2 ∧
        ∀ a, ((f s).run s).1 = .ok a → Q a) : Agrees R Q (get >>= f) :=
  fun s s' hs => hf s s' hs (h.view hs)

theorem peek : Agrees R A peek := by
  refine h.get fun s s' hs hview => ?_
  rw [hview] at hs ⊢
  dsimp only
  cases hready : s.scan.ready with
  | error e => exact ⟨rfl, hs, fun a ha => by cases ha⟩
  | ok scan =>
    obtain ⟨hafter, htoken⟩ := h.ready hs hready
    refine ⟨rfl, hafter, fun a ha => ?_⟩
    cases ha
    exact htoken

theorem drop : Agrees R (fun _ => True) drop :=
  fun _ _ hs => ⟨rfl, h.take hs, fun _ _ => trivial⟩

theorem accept (t : Token) : Agrees R (fun _ => True) (accept t) := by
  refine .bind h.peek fun t' _ => ?_
  exact .ite (.bind h.drop fun _ _ => .pure trivial) (.pure trivial)

theorem expect (t : Token) : Agrees R (fun _ => True) (expect t) := by
  refine .bind (h.accept t) fun found _ => ?_
  cases found with
  | true => exact .pure trivial
  | false => exact .fail

theorem atOneOf (ts : List Token) : Agrees R (fun _ => True) (atOneOf ts) :=
  .bind h.peek fun _ _ => .pure trivial

theorem version : Agrees R (fun _ => True) version := by
  refine h.get fun s s' hs hview => ?_
  rw [hview] at hs ⊢
  exact ⟨rfl, hs, fun _ _ => trivial⟩

theorem directives (fuel : Nat) {version? : Option Version} {handles : List (String × String)}
    (hv : ∀ v, version? = some v → A (.directive (.version v))) :
    Agrees R (fun x => ∀ v, x.1 = some v → A (.directive (.version v)))
      (directives fuel version? handles) := by
  induction fuel generalizing version? handles with
  | zero => exact .fail
  | succ fuel ih =>
    rw [Yaml.directives]
    refine .bind h.peek fun t ht => ?_
    split
    · refine .bind h.drop fun _ _ => ?_
      split
      · split_ifs
        · exact .fail
        · refine ih fun v hv => ?_
          cases hv
          exact ht
      · split_ifs
        · exact .fail
        · exact ih hv
      · exact ih hv
    · exact .pure hv

theorem adoptVersion {version? : Option Version}
    (hv : ∀ v, version? = some v → A (.directive (.version v))) :
    Agrees R (fun _ => True) (adoptVersion version?) := by
  cases version? with
  | some v => exact h.adopt (hv v rfl)
  | none =>
    refine h.get fun s s' hs _ => ?_
    cases s.version? <;> cases s'.version? <;> exact ⟨rfl, hs, fun _ _ => trivial⟩

theorem documentHead (fuel : Nat) : Agrees R (fun _ => True) (documentHead fuel) := by
  refine .bind (h.directives fuel (by simp)) fun x hx => ?_
  refine .bind (h.adoptVersion hx) fun _ _ => ?_
  refine .bind (P := fun _ => True) ?_ fun _ _ => h.expect .documentStart
  exact fun s s' hs => ⟨rfl, h.handles _ hs, fun _ _ => trivial⟩

theorem atDocumentEdge : Agrees R (fun _ => True) atDocumentEdge := by
  refine .bind h.peek fun t _ => ?_
  split <;> exact .pure trivial

theorem skipDocumentEnds (fuel : Nat) : Agrees R (fun _ => True) (skipDocumentEnds fuel) := by
  induction fuel with
  | zero => exact .pure trivial
  | succ fuel ih =>
    refine .bind (h.accept .documentEnd) fun found _ => ?_
    exact .ite ih (.pure trivial)

theorem documentTail (fuel : Nat) (closed : Bool) :
    Agrees R (fun _ => True) (documentTail fuel closed) := by
  have hfail : Agrees R (fun _ => True) (Yaml.documentHead fuel >>= fun _ => (fail : Read Unit)) :=
    .bind (h.documentHead fuel) fun _ _ => .fail
  refine .bind h.version fun v _ => .ite ?_ ?_
  · refine .bind h.peek fun t _ => ?_
    split
    · exact .pure trivial
    · exact hfail
    · exact hfail
    · exact .fail
  · refine .bind (h.skipDocumentEnds fuel) fun _ _ => .bind h.peek fun t _ => ?_
    exact .ite hfail (.pure trivial)

end Steady

namespace Respected

open Read

variable (h : Respected R A)
include h

theorem fullTag (handle : Option String) (suffix : String) :
    Agrees R (fun _ => True) (fullTag handle suffix) := by
  cases handle with
  | none => exact .pure trivial
  | some name =>
    refine h.get fun s s' hs hview => ?_
    rw [hview] at hs ⊢
    cases s.handles.lookup name with
    | some start => exact ⟨rfl, hs, fun _ _ => trivial⟩
    | none => exact ⟨rfl, hs, fun _ _ => trivial⟩

theorem takeAnchor (p : Properties) : Agrees R (fun _ => True) (takeAnchor p) := by
  refine .bind h.peek fun t _ => ?_
  split
  · exact .bind h.drop fun _ _ => .pure trivial
  · exact .pure trivial

theorem takeProperties : Agrees R (fun _ => True) takeProperties := by
  refine .bind (h.takeAnchor {}) fun p _ => ?_
  refine .bind h.peek fun t _ => ?_
  split
  · rename_i handle suffix _
    have htag : ∀ p : Properties, True → Agrees R (fun _ => True) (do
        let tag ← Yaml.fullTag handle suffix
        return { p with tag := some tag }) :=
      fun p _ => .bind (h.fullTag handle suffix) fun _ _ => .pure trivial
    refine .bind h.drop fun _ _ => ?_
    exact .ite (.bind (h.takeAnchor p) htag) (.bind (.pure trivial) htag)
  · exact .pure trivial

theorem implicitTag (text : String) : Agrees R (fun _ => True) (implicitTag text) := by
  refine .bind h.version fun v _ => ?_
  split
  · exact .pure trivial
  · exact .throw _

theorem scalarTag (p : Properties) (text : String) (plain : Bool) :
    Agrees R (fun _ => True) (scalarTag p text plain) := by
  unfold Yaml.scalarTag
  split
  · exact .ite (h.implicitTag text) (.pure trivial)
  · exact .ite (h.implicitTag text) (.pure trivial)

theorem addNode (p : Properties) (tag : Tag) (content : Content) :
    Agrees R (fun _ => True) (addNode p tag content) := by
  refine h.get fun s s' hs hview => ?_
  have hnodes := h.nodes (s.nodes.push { tag, content }) hs
  rw [hview] at hs hnodes ⊢
  cases p.anchor with
  | none => exact ⟨rfl, hnodes, fun _ _ => trivial⟩
  | some name => exact ⟨rfl, h.anchors _ hnodes, fun _ _ => trivial⟩

theorem changeContent (i : Nat) (f : Content → Content) :
    Agrees R (fun _ => True) (changeContent i f) := by
  intro s s' hs
  have hnodes := h.nodes (s.nodes.modify i fun n => { n with content := f n.content }) hs
  rw [h.view hs] at hnodes ⊢
  exact ⟨rfl, hnodes, fun _ _ => trivial⟩

theorem scalarNode (p : Properties) (text : String) (plain : Bool) :
    Agrees R (fun _ => True) (scalarNode p text plain) :=
  .bind (h.scalarTag p text plain) fun _ _ => h.addNode p _ _

theorem emptyNode : Agrees R (fun _ => True) emptyNode := h.scalarNode {} "" true

end Respected

/-- The readers of nodes with this bound on their steps agree. -/
structure NodesAgree (R : ReadState → ReadState → Prop) (fuel : Nat) : Prop where
  node : ∀ depth block indentless, Agrees R (fun _ => True) (node fuel depth block indentless)
  blockItems : ∀ depth i, Agrees R (fun _ => True) (blockItems fuel depth i)
  indentlessItems : ∀ depth i, Agrees R (fun _ => True) (indentlessItems fuel depth i)
  blockPairs : ∀ depth i, Agrees R (fun _ => True) (blockPairs fuel depth i)
  flowItems : ∀ depth i first, Agrees R (fun _ => True) (flowItems fuel depth i first)
  flowPairs : ∀ depth i first, Agrees R (fun _ => True) (flowPairs fuel depth i first)

namespace Respected

open Read

variable (h : Respected R A)
include h

theorem orEmpty {c : Prop} [Decidable c] {part : Read Nat} {rest : Nat → Read α} {Q : α → Prop}
    (hpart : Agrees R (fun _ => True) part) (hrest : ∀ i, Agrees R Q (rest i)) :
    Agrees R Q (if c then Yaml.emptyNode >>= rest else part >>= rest) :=
  .ite (.bind h.emptyNode fun i _ => hrest i) (.bind hpart fun i _ => hrest i)

/-- The value of a pair, which may be left out with its mark or without it, and what follows it. -/
theorem valueOrEmpty {stops : List Token} {part : Read Nat} {rest : Nat → Read α} {Q : α → Prop}
    (hpart : Agrees R (fun _ => True) part) (hrest : ∀ i, Agrees R Q (rest i)) :
    Agrees R Q (accept .value >>= fun found =>
      if found then atOneOf stops >>= fun stop =>
        if stop then Yaml.emptyNode >>= rest else part >>= rest
      else Yaml.emptyNode >>= rest) :=
  .bind (h.accept .value) fun _ _ => .ite
    (.bind (h.atOneOf stops) fun _ _ => h.orEmpty hpart hrest)
    (.bind h.emptyNode fun i _ => hrest i)

section

variable {fuel : Nat} (ih : NodesAgree R fuel)
include ih

theorem node_succ (depth : Nat) (block indentless : Bool) :
    Agrees R (fun _ => True) (node (fuel + 1) depth block indentless) := by
  rw [node]
  refine .guarded (.throw .tooDeep) fun _ => .bind h.peek fun t _ => ?_
  split
  · refine .bind h.drop fun _ _ => h.get fun s s' hs hview => ?_
    rw [hview] at hs ⊢
    dsimp only
    split
    · exact ⟨rfl, hs, fun _ _ => trivial⟩
    · exact ⟨rfl, hs, fun _ _ => trivial⟩
  · refine .bind h.takeProperties fun p _ => .bind h.peek fun t _ => ?_
    have hempty : Agrees R (fun _ => True)
        (if p.isEmpty then fail else Yaml.scalarNode p "" true) :=
      .ite .fail (h.scalarNode p _ _)
    split
    · exact .bind h.drop fun _ _ => h.scalarNode p _ _
    · exact .ite (.bind (h.addNode p _ _) fun i _ => ih.indentlessItems _ i) hempty
    · exact .bind h.drop fun _ _ => .bind (h.addNode p _ _) fun i _ => ih.flowItems _ i _
    · exact .bind h.drop fun _ _ => .bind (h.addNode p _ _) fun i _ => ih.flowPairs _ i _
    · refine .ite ?_ hempty
      exact .bind h.drop fun _ _ => .bind (h.addNode p _ _) fun i _ => ih.blockItems _ i
    · refine .ite ?_ hempty
      exact .bind h.drop fun _ _ => .bind (h.addNode p _ _) fun i _ => ih.blockPairs _ i
    · exact hempty

theorem blockItems_succ (depth i : Nat) :
    Agrees R (fun _ => True) (blockItems (fuel + 1) depth i) := by
  rw [blockItems]
  refine .bind (h.accept .blockEntry) fun _ _ => .ite ?_ ?_
  · refine .bind (h.atOneOf _) fun _ _ => h.orEmpty (ih.node _ _ _) fun item => ?_
    exact .bind (h.changeContent _ _) fun _ _ => ih.blockItems _ _
  · exact .bind (h.expect .blockEnd) fun _ _ => .pure trivial

theorem indentlessItems_succ (depth i : Nat) :
    Agrees R (fun _ => True) (indentlessItems (fuel + 1) depth i) := by
  rw [indentlessItems]
  refine .bind (h.accept .blockEntry) fun _ _ => .ite ?_ (.pure trivial)
  refine .bind (h.atOneOf _) fun _ _ => h.orEmpty (ih.node _ _ _) fun item => ?_
  exact .bind (h.changeContent _ _) fun _ _ => ih.indentlessItems _ _

theorem blockPairs_succ (depth i : Nat) :
    Agrees R (fun _ => True) (blockPairs (fuel + 1) depth i) := by
  rw [blockPairs]
  refine .bind (h.accept .key) fun _ _ => .bind h.version fun _ _ => .bind h.peek fun _ _ => ?_
  refine .ite ?_ ?_
  · refine .bind (h.atOneOf _) fun _ _ => h.orEmpty (ih.node _ _ _) fun k => ?_
    refine h.valueOrEmpty (ih.node _ _ _) fun x => ?_
    exact .bind (h.changeContent _ _) fun _ _ => ih.blockPairs _ _
  · exact .bind (h.expect .blockEnd) fun _ _ => .pure trivial

theorem flowItems_succ (depth i : Nat) (first : Bool) :
    Agrees R (fun _ => True) (flowItems (fuel + 1) depth i first) := by
  rw [flowItems]
  have hnext : ∀ item, Agrees R (fun _ => True)
      (Yaml.changeContent i (.addItem item) >>= fun _ => flowItems fuel depth i false) :=
    fun item => .bind (h.changeContent _ _) fun _ _ => ih.flowItems _ _ _
  refine .bind (h.accept _) fun _ _ => .ite (.pure trivial) ?_
  refine .guarded (h.expect .flowEntry) fun _ => ?_
  refine .bind (h.accept _) fun _ _ => .ite (.pure trivial) ?_
  refine .bind (h.accept .key) fun _ _ => .ite ?_ (.bind (ih.node _ _ _) fun item _ => hnext item)
  refine .guarded (.throw .tooDeep) fun _ => ?_
  refine .bind (h.addNode {} _ _) fun j _ => ?_
  refine .bind (h.atOneOf _) fun _ _ => h.orEmpty (ih.node _ _ _) fun k => ?_
  refine h.valueOrEmpty (ih.node _ _ _) fun x => ?_
  exact .bind (h.changeContent _ _) fun _ _ => .bind (.pure trivial) fun item (_ : True) => hnext item

theorem flowPairs_succ (depth i : Nat) (first : Bool) :
    Agrees R (fun _ => True) (flowPairs (fuel + 1) depth i first) := by
  rw [flowPairs]
  have hnext : ∀ k x, Agrees R (fun _ => True)
      (Yaml.changeContent i (.addPair k x) >>= fun _ => flowPairs fuel depth i false) :=
    fun k x => .bind (h.changeContent _ _) fun _ _ => ih.flowPairs _ _ _
  refine .bind (h.accept _) fun _ _ => .ite (.pure trivial) ?_
  refine .guarded (h.expect .flowEntry) fun _ => ?_
  refine .bind (h.accept _) fun _ _ => .ite (.pure trivial) ?_
  refine .bind (h.accept .key) fun _ _ => .bind h.version fun _ _ => .bind h.peek fun _ _ => ?_
  refine .ite ?_ ?_
  · refine .bind (h.atOneOf _) fun _ _ => h.orEmpty (ih.node _ _ _) fun k => ?_
    refine h.valueOrEmpty (ih.node _ _ _) fun x => ?_
    exact .bind (.pure trivial) fun pair (_ : True) => hnext pair.1 pair.2
  · refine .bind (ih.node _ _ _) fun k _ => .bind h.emptyNode fun x _ => ?_
    exact .bind (.pure trivial) fun pair (_ : True) => hnext pair.1 pair.2

end

theorem nodes_agree (fuel : Nat) : NodesAgree R fuel := by
  induction fuel with
  | zero =>
    refine ⟨fun _ _ _ => ?_, fun _ _ => ?_, fun _ _ => ?_, fun _ _ => ?_, fun _ _ _ => ?_,
      fun _ _ _ => ?_⟩
    · rw [node]
      exact .fail
    · rw [blockItems]
      exact .fail
    · rw [indentlessItems]
      exact .fail
    · rw [blockPairs]
      exact .fail
    · rw [flowItems]
      exact .fail
    · rw [flowPairs]
      exact .fail
  | succ fuel ih =>
    exact ⟨h.node_succ ih, h.blockItems_succ ih, h.indentlessItems_succ ih, h.blockPairs_succ ih,
      h.flowItems_succ ih, h.flowPairs_succ ih⟩

theorem documentNode (fuel : Nat) : Agrees R (fun _ => True) (documentNode fuel) := by
  have hroot : Agrees R (fun _ => True) (node fuel 0 true false >>= fun i => pure (some i)) :=
    .bind ((h.nodes_agree fuel).node 0 true false) fun _ _ => .pure trivial
  have hheaded : Agrees R (fun _ => True) (do
      Yaml.documentHead fuel
      if ← Yaml.atDocumentEdge then return some (← Yaml.emptyNode)
      else return some (← node fuel 0 true false)) := by
    refine .bind (h.documentHead fuel) fun _ _ => .bind h.atDocumentEdge fun _ _ => .ite ?_ hroot
    exact .bind h.emptyNode fun _ _ => .pure trivial
  refine .bind h.peek fun t _ => ?_
  split
  · exact .pure trivial
  · exact hheaded
  · exact hheaded
  · refine .bind (P := fun _ => True) ?_ fun _ _ => hroot
    exact fun s s' hs => ⟨rfl, h.handles _ hs, fun _ _ => trivial⟩

theorem document (fuel : Nat) : Agrees R (fun _ => True) (document fuel) := by
  refine .bind (h.documentNode fuel) fun root? _ => ?_
  cases root? with
  | none => exact .pure trivial
  | some i =>
    refine .bind (h.accept .documentEnd) fun closed _ => ?_
    refine .bind (P := fun _ => True) ?_ fun _ _ => ?_
    · exact fun s s' hs => ⟨rfl, h.anchors [] hs, fun _ _ => trivial⟩
    · exact .bind (h.documentTail fuel closed) fun _ _ => .pure trivial

end Respected

end ImportGroups.Yaml
