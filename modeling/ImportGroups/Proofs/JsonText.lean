import ImportGroups.Report
import ImportGroups.Proofs.TextParts

/-!
JSON texts can be read back.

The start of a value's text says what kind of value it is, and the text itself where it ends. So two
values, or two reports, with one text are the same.
-/

namespace ImportGroups.Text.Json

/-- What follows the backslash of an escaped character. -/
def escapeCode? (c : Char) : Option (List Char) :=
  if c = '"' then some ['"']
  else if c = '\\' then some ['\\']
  else if c = '\n' then some ['n']
  else if c = '\r' then some ['r']
  else if c = '\t' then some ['t']
  else if c.toNat = 0x08 then some ['b']
  else if c.toNat = 0x0C then some ['f']
  else if c.toNat < 0x20 then some ('u' :: hexDigits 4 c.toNat)
  else none

def escaped : List Char := '"' :: '\\' :: (List.range 0x20).map Char.ofNat

theorem mem_escaped {c : Char} {code : List Char} (h : escapeCode? c = some code) : c ∈ escaped := by
  have hcontrol : c.toNat < 0x20 → c ∈ escaped := by
    intro hlt
    refine List.mem_cons_of_mem _ (List.mem_cons_of_mem _ ?_)
    exact List.mem_map.mpr ⟨c.toNat, List.mem_range.mpr hlt, Char.ofNat_toNat c⟩
  unfold escapeCode? at h
  split_ifs at h with h₁ h₂ h₃ h₄ h₅ h₆ h₇ h₈
  · simp [escaped, h₁]
  · simp [escaped, h₂]
  · exact hcontrol (by simp [h₃])
  · exact hcontrol (by simp [h₄])
  · exact hcontrol (by simp [h₅])
  · exact hcontrol (by omega)
  · exact hcontrol (by omega)
  · exact hcontrol h₈

theorem escapeCode?_separate : (escaped.all fun c => escaped.all fun d =>
    !((escapeCode? c).getD []).isPrefixOf ((escapeCode? d).getD []) || c == d) = true := by
  decide

theorem escapeCode?_prefix_inj {c d : Char} {code code' : List Char}
    (hc : escapeCode? c = some code) (hd : escapeCode? d = some code') (h : code <+: code') :
    c = d := by
  have hall := List.all_eq_true.mp escapeCode?_separate c (mem_escaped hc)
  have hpair := List.all_eq_true.mp hall d (mem_escaped hd)
  rw [hc, hd, Option.getD_some, Option.getD_some, List.isPrefixOf_iff_prefix.mpr h] at hpair
  simpa using hpair

theorem toList_escape (c : Char) :
    (escape c).toList = ((escapeCode? c).map ('\\' :: ·)).getD [c] := by
  simp only [escape, escapeCode?, beq_iff_eq]
  split_ifs <;> simp

theorem escapeCode?_eq_none {c : Char} (h : escapeCode? c = none) : c ≠ '"' ∧ c ≠ '\\' := by
  constructor
  · rintro rfl
    simp [escapeCode?] at h
  · rintro rfl
    simp [escapeCode?] at h

theorem escape_append_inj {c d : Char} {s t : List Char}
    (h : (escape c).toList ++ s = (escape d).toList ++ t) : c = d ∧ s = t := by
  rw [toList_escape, toList_escape] at h
  cases hc : escapeCode? c with
  | none =>
    cases hd : escapeCode? d with
    | none => simpa [hc, hd] using h
    | some code =>
      simp only [hc, hd, Option.map_none, Option.map_some, Option.getD_none, Option.getD_some] at h
      exact absurd (List.cons.inj h).1 (escapeCode?_eq_none hc).2
  | some code =>
    cases hd : escapeCode? d with
    | none =>
      simp only [hc, hd, Option.map_none, Option.map_some, Option.getD_none, Option.getD_some] at h
      exact absurd (List.cons.inj h).1.symm (escapeCode?_eq_none hd).2
    | some code' =>
      simp only [hc, hd, Option.map_some, Option.getD_some] at h
      obtain ⟨-, h⟩ := List.cons.inj h
      obtain rfl : c = d := by
        have hcode' : code' <+: code ++ s := ⟨t, h.symm⟩
        rcases List.prefix_or_prefix_of_prefix (List.prefix_append code s) hcode' with hpre | hpre
        · exact escapeCode?_prefix_inj hc hd hpre
        · exact (escapeCode?_prefix_inj hd hc hpre).symm
      rw [hc] at hd
      cases hd
      exact ⟨rfl, List.append_cancel_left h⟩

theorem toList_quoted (s : String) :
    (quoted s).toList = '"' :: s.toList.flatMap (fun c => (escape c).toList) ++ ['"'] := by
  simp [quoted, List.flatMap_map]

theorem quoted_append_inj {s t : String} {rest rest' : List Char}
    (h : (quoted s).toList ++ rest = (quoted t).toList ++ rest') : s = t ∧ rest = rest' := by
  -- no character's text starts with the closing quote
  have hquote : ∀ (c : Char) (more more' : List Char), (escape c).toList ++ more ≠ '"' :: more' := by
    intro c more more' heq
    rw [toList_escape] at heq
    cases hc : escapeCode? c with
    | none =>
      simp only [hc, Option.map_none, Option.getD_none] at heq
      exact (escapeCode?_eq_none hc).1 (List.cons.inj heq).1
    | some code =>
      simp only [hc, Option.map_some, Option.getD_some] at heq
      exact absurd (List.cons.inj heq).1 (by decide)
  simp only [toList_quoted, List.cons_append, List.append_assoc, List.nil_append] at h
  obtain ⟨-, h⟩ := List.cons.inj h
  rw [← String.toList_inj]
  generalize s.toList = cs at h
  generalize t.toList = ds at h
  induction cs generalizing ds with
  | nil =>
    cases ds with
    | nil => exact ⟨rfl, (List.cons.inj h).2⟩
    | cons d ds =>
      rw [List.flatMap_cons, List.append_assoc] at h
      exact absurd h.symm (hquote d _ _)
  | cons c cs ih =>
    cases ds with
    | nil =>
      rw [List.flatMap_cons, List.append_assoc] at h
      exact absurd h (hquote c _ _)
    | cons d ds =>
      rw [List.flatMap_cons, List.flatMap_cons, List.append_assoc, List.append_assoc] at h
      obtain ⟨rfl, htail⟩ := escape_append_inj h
      obtain ⟨rfl, hrest⟩ := ih ds htail
      exact ⟨rfl, hrest⟩

def EndsNumber (s : List Char) : Prop := ∀ c ∈ s.head?, c.isDigit = false

/-- The value is known from its text, whatever follows that ends a number. -/
def Readable {α : Type} (text : α → List Char) (x : α) : Prop :=
  ∀ y s t, EndsNumber s → EndsNumber t → text x ++ s = text y ++ t → x = y ∧ s = t

def bracketed {α : Type} (depth : Nat) (opening closing : Char) (text : α → List Char) (s : List Char) :
    List α → List Char
  | [] => opening :: closing :: s
  | x :: xs => opening :: (text x ++
      (xs.flatMap (',' :: text ·) ++ ((lineStart depth).toList ++ closing :: s)))

theorem toList_lineStart (depth : Nat) :
    (lineStart depth).toList = '\n' :: ("".pushn ' ' (2 * depth)).toList := by
  simp [lineStart]

section

variable {α : Type} {depth : Nat} {opening closing : Char} {text : α → List Char}

theorem members_append_inj {xs ys : List α} {s t : List Char} (hxs : ∀ x ∈ xs, Readable text x)
    (hs : s.head? = some '\n') (ht : t.head? = some '\n')
    (h : xs.flatMap (',' :: text ·) ++ s = ys.flatMap (',' :: text ·) ++ t) : xs = ys ∧ s = t := by
  have hends : ∀ {zs : List α} {u : List Char}, u.head? = some '\n' →
      EndsNumber (zs.flatMap (',' :: text ·) ++ u) := by
    intro zs u hu
    cases zs with
    | nil => simp [EndsNumber, hu]
    | cons z zs => simp [EndsNumber]
  induction xs generalizing ys with
  | nil =>
    cases ys with
    | nil => exact ⟨rfl, h⟩
    | cons y ys =>
      rw [List.flatMap_nil, List.nil_append] at h
      simp [h] at hs
  | cons x xs ih =>
    obtain ⟨hx, hxs⟩ := List.forall_mem_cons.mp hxs
    cases ys with
    | nil =>
      rw [List.flatMap_nil, List.nil_append] at h
      simp [← h] at ht
    | cons y ys =>
      simp only [List.flatMap_cons, List.cons_append, List.append_assoc] at h
      obtain ⟨rfl, hrest⟩ := hx y _ _ (hends hs) (hends ht) (List.cons.inj h).2
      obtain ⟨rfl, hst⟩ := ih hxs hrest
      exact ⟨rfl, hst⟩

theorem bracketed_inj {xs ys : List α} {s t : List Char} (hclosing : closing ≠ '\n')
    (htext : ∀ x, (text x).head? = some '\n') (hxs : ∀ x ∈ xs, Readable text x)
    (h : bracketed depth opening closing text s xs = bracketed depth opening closing text t ys) :
    xs = ys ∧ s = t := by
  -- a member stands on a line of its own, the bracket of an empty list does not
  have hempty : ∀ (x : α) (u v : List Char), closing :: u ≠ text x ++ v := by
    intro x u v heq
    have hhead := congrArg List.head? heq
    rw [List.head?_append, htext] at hhead
    exact hclosing (by simpa using hhead)
  have hline : ∀ u : List Char, ((lineStart depth).toList ++ closing :: u).head? = some '\n' := by
    intro u
    rw [toList_lineStart]
    rfl
  cases xs with
  | nil =>
    cases ys with
    | nil => exact ⟨rfl, (List.cons.inj (List.cons.inj h).2).2⟩
    | cons y ys => exact absurd (List.cons.inj h).2 (hempty y _ _)
  | cons x xs =>
    cases ys with
    | nil => exact absurd (List.cons.inj h).2.symm (hempty x _ _)
    | cons y ys =>
      have hmembers : (x :: xs).flatMap (',' :: text ·) ++ ((lineStart depth).toList ++ closing :: s) =
          (y :: ys).flatMap (',' :: text ·) ++ ((lineStart depth).toList ++ closing :: t) := by
        simpa using (List.cons.inj h).2
      obtain ⟨hitems, hrest⟩ := members_append_inj hxs (hline s) (hline t) hmembers
      exact ⟨hitems, (List.cons.inj (List.append_cancel_left hrest)).2⟩

end

def itemText (depth : Nat) (x : Json) : List Char := (lineStart depth).toList ++ (x.render depth).toList

def fieldText (depth : Nat) (f : String × Json) : List Char :=
  (lineStart depth).toList ++ ((quoted f.1).toList ++ ':' :: ' ' :: (f.2.render depth).toList)

theorem toList_render_list (depth : Nat) (s : List Char) (xs : List Json) :
    ((list xs).render depth).toList ++ s = bracketed depth '[' ']' (itemText (depth + 1)) s xs := by
  have hitems : ∀ (x : Json) (xs : List Json),
      (",".intercalate (renderItems (depth + 1) (x :: xs))).toList =
        itemText (depth + 1) x ++ xs.flatMap (',' :: itemText (depth + 1) ·) := by
    intro x xs
    induction xs generalizing x with
    | nil => simp [renderItems, itemText]
    | cons y ys ih =>
      rw [renderItems, renderItems, String.intercalate_cons_cons, ← renderItems, String.toList_append,
        ih]
      simp [itemText]
  cases xs with
  | nil => simp [render, bracketed]
  | cons x xs =>
    rw [render, bracketed, String.toList_append, String.toList_append, String.toList_append, hitems]
    · simp
    · simp

theorem toList_render_object (depth : Nat) (s : List Char) (fs : List (String × Json)) :
    ((object fs).render depth).toList ++ s =
      bracketed depth '\x7b' '\x7d' (fieldText (depth + 1)) s fs := by
  have hfields : ∀ (f : String × Json) (fs : List (String × Json)),
      (",".intercalate (renderFields (depth + 1) (f :: fs))).toList =
        fieldText (depth + 1) f ++ fs.flatMap (',' :: fieldText (depth + 1) ·) := by
    intro f fs
    induction fs generalizing f with
    | nil => simp [renderFields, fieldText]
    | cons g gs ih =>
      rw [renderFields, renderFields, String.intercalate_cons_cons, ← renderFields,
        String.toList_append, ih]
      simp [fieldText]
  cases fs with
  | nil => simp [render, bracketed]
  | cons f fs =>
    rw [render, bracketed, String.toList_append, String.toList_append, String.toList_append, hfields]
    · simp
    · simp

def mark : Json → Char
  | num _ => '0'
  | str _ => '"'
  | list _ => '['
  | object _ => '\x7b'

theorem render_starts (depth : Nat) (j : Json) (s : List Char) :
    ∃ c rest, (j.render depth).toList ++ s = c :: rest ∧
      (if c.isDigit then '0' else c) = j.mark := by
  cases j with
  | num n =>
    obtain ⟨c, rest, hdigits⟩ := List.exists_cons_of_ne_nil (@Nat.toDigits_ne_nil n 10)
    have htext : n.repr.toList = c :: rest := by rw [Nat.toList_repr, hdigits]
    have hc : c.isDigit = true := isDigit_of_mem_repr (htext ▸ List.mem_cons_self)
    exact ⟨c, rest ++ s, congrArg (· ++ s) htext, by rw [hc]; rfl⟩
  | str a => exact ⟨_, _, congrArg (· ++ s) (toList_quoted a), rfl⟩
  | list xs =>
    rw [toList_render_list]
    cases xs <;> exact ⟨_, _, rfl, rfl⟩
  | object fs =>
    rw [toList_render_object]
    cases fs <;> exact ⟨_, _, rfl, rfl⟩

theorem mark_eq {depth : Nat} {j k : Json} {s t : List Char}
    (h : (j.render depth).toList ++ s = (k.render depth).toList ++ t) : j.mark = k.mark := by
  obtain ⟨c, rest, hj, hmark⟩ := render_starts depth j s
  obtain ⟨d, rest', hk, hmark'⟩ := render_starts depth k t
  rw [hj, hk] at h
  obtain rfl : c = d := (List.cons.inj h).1
  rw [← hmark, ← hmark']

/-- What holds of numbers and strings, and of lists and objects if it holds of their members, holds
of every value. -/
@[elab_as_elim]
theorem membersInduction {motive : Json → Prop} (num : ∀ n, motive (.num n))
    (str : ∀ s, motive (.str s)) (list : ∀ xs, (∀ x ∈ xs, motive x) → motive (.list xs))
    (object : ∀ fs : List (String × Json), (∀ f ∈ fs, motive f.2) → motive (.object fs)) (j : Json) :
    motive j :=
  Json.rec (motive_2 := fun xs => ∀ x ∈ xs, motive x) (motive_3 := fun fs => ∀ f ∈ fs, motive f.2)
    (motive_4 := fun f => motive f.2) num str list object (by simp)
    (fun _ _ hx hxs => List.forall_mem_cons.mpr ⟨hx, hxs⟩) (by simp)
    (fun _ _ hf hfs => List.forall_mem_cons.mpr ⟨hf, hfs⟩) (fun _ _ hx => hx) j

theorem itemText_readable {depth : Nat} {x : Json}
    (h : Readable (fun j => (j.render depth).toList) x) : Readable (itemText depth) x := by
  intro y s t hs ht heq
  simp only [itemText, List.append_assoc] at heq
  exact h y s t hs ht (List.append_cancel_left heq)

theorem fieldText_readable {depth : Nat} {f : String × Json}
    (h : Readable (fun j => (j.render depth).toList) f.2) : Readable (fieldText depth) f := by
  intro g s t hs ht heq
  simp only [fieldText, List.append_assoc, List.cons_append] at heq
  obtain ⟨hkey, hvalue⟩ := quoted_append_inj (List.append_cancel_left heq)
  obtain ⟨hval, hst⟩ := h g.2 s t hs ht (List.cons.inj (List.cons.inj hvalue).2).2
  exact ⟨Prod.ext hkey hval, hst⟩

theorem render_readable (j : Json) (depth : Nat) :
    Readable (fun j => (j.render depth).toList) j := by
  induction j using membersInduction generalizing depth with
  | num m =>
    intro k s t hs ht h
    have hmark := mark_eq h
    cases k with
    | num n =>
      obtain ⟨rfl, hst⟩ := repr_append_inj hs ht h
      exact ⟨rfl, hst⟩
    | str _ | list _ | object _ => simp [mark] at hmark
  | str a =>
    intro k s t hs ht h
    have hmark := mark_eq h
    cases k with
    | str b =>
      obtain ⟨rfl, hst⟩ := quoted_append_inj h
      exact ⟨rfl, hst⟩
    | num _ | list _ | object _ => simp [mark] at hmark
  | list xs ih =>
    intro k s t hs ht h
    have hmark := mark_eq h
    cases k with
    | list ys =>
      simp only [toList_render_list] at h
      obtain ⟨rfl, hst⟩ := bracketed_inj (by decide) (fun x => by simp [itemText, toList_lineStart])
        (fun x hx => itemText_readable (ih x hx (depth + 1))) h
      exact ⟨rfl, hst⟩
    | num _ | str _ | object _ => simp [mark] at hmark
  | object fs ih =>
    intro k s t hs ht h
    have hmark := mark_eq h
    cases k with
    | object gs =>
      simp only [toList_render_object] at h
      obtain ⟨rfl, hst⟩ := bracketed_inj (by decide) (fun f => by simp [fieldText, toList_lineStart])
        (fun f hf => fieldText_readable (ih f hf (depth + 1))) h
      exact ⟨rfl, hst⟩
    | num _ | str _ | list _ => simp [mark] at hmark

theorem toText_inj {j k : Json} (h : j.toText = k.toText) : j = k := by
  have hends : EndsNumber [] := by simp [EndsNumber]
  exact (render_readable j 0 k [] [] hends hends (congrArg (·.toList ++ []) h)).1

end ImportGroups.Text.Json

namespace ImportGroups.Report

theorem toText_inj {r r' : Report} (h : r.toText = r'.toText) : r = r' := by
  have hjson := Text.Json.toText_inj h
  obtain ⟨root, checked, failures⟩ := r
  obtain ⟨root', checked', failures'⟩ := r'
  simp only [toJson, Text.Json.object.injEq, List.cons.injEq, Prod.mk.injEq, Text.Json.str.injEq,
    Text.Json.num.injEq, Text.Json.list.injEq, true_and, and_true] at hjson
  obtain ⟨rfl, rfl, hfailures⟩ := hjson
  have hentries : failures = failures' := by
    apply List.map_injective_iff.mpr _ hfailures
    intro f g hfg
    cases f
    cases g
    simpa using hfg
  rw [hentries]

end ImportGroups.Report
