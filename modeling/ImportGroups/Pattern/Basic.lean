import ImportGroups.Pattern.Atom
import ImportGroups.Text.Blank
import ImportGroups.Text.Split

/-!
Path patterns in the style of ignore files.

A pattern is read segment by segment, between slashes. One without an inner slash matches at any
depth, one with a leading slash only at the top. Two stars stand for directories, one star for
characters of a name. A pattern that ends in a slash matches what is below a directory. Blank
patterns, comments, the single slash and patterns with an unclosed bracket match nothing.
-/

namespace ImportGroups

inductive PatternError where
  | noSegment
  | danglingEscape
  | badRange
  deriving DecidableEq, Repr

namespace Pattern

inductive Rule where
  | nothing
  | everything
  | belowDirectory
  | atoms (as : List Atom)
  deriving DecidableEq, Repr

inductive SegmentFault where
  | unclosedClass
  | danglingEscape
  deriving DecidableEq, Repr

def splitClosing : List Char → Option (List Char × List Char)
  | [] => none
  | c :: cs =>
    match cs.dropWhile (· != ']') with
    | [] => none
    | _ :: rest => some (c :: cs.takeWhile (· != ']'), rest)

/-- The class after an opening bracket, and what follows its closing one. -/
def splitClass : List Char → Option (CharClass × List Char)
  | '!' :: cs | '^' :: cs =>
    (splitClosing cs).map fun (items, rest) => (⟨true, ClassItem.ofChars items⟩, rest)
  | cs => (splitClosing cs).map fun (items, rest) => (⟨false, ClassItem.ofChars items⟩, rest)

theorem splitClosing_length {cs items rest : List Char} (h : splitClosing cs = some (items, rest)) :
    rest.length < cs.length := by
  unfold splitClosing at h
  split at h
  · simp at h
  · rename_i c cs
    split at h
    · simp at h
    · rename_i d rest' hd
      have hl : (cs.dropWhile (· != ']')).length ≤ cs.length :=
        (List.dropWhile_suffix _).length_le
      simp only [Option.some.injEq, Prod.mk.injEq] at h
      simp only [hd, List.length_cons] at hl
      simp only [List.length_cons, ← h.2]
      omega

theorem splitClass_length {cs rest : List Char} {k : CharClass}
    (h : splitClass cs = some (k, rest)) : rest.length < cs.length := by
  unfold splitClass at h
  split at h <;>
    (obtain ⟨⟨items, rest'⟩, hs, he⟩ := Option.map_eq_some_iff.1 h
     have := splitClosing_length hs
     simp only [Prod.mk.injEq] at he
     simp only [List.length_cons, ← he.2]
     omega)

def charAtoms : List Char → Except SegmentFault (List Atom)
  | [] => .ok []
  | c :: cs =>
    match c with
    | '\\' =>
      match cs with
      | [] => .error .danglingEscape
      | d :: ds => (charAtoms ds).map (.char d :: ·)
    | '*' => (charAtoms cs).map (.run :: ·)
    | '?' => (charAtoms cs).map (.notSlash :: ·)
    | '[' =>
      match h : splitClass cs with
      | none => .error .unclosedClass
      | some (k, rest) =>
        have := splitClass_length h
        (charAtoms rest).map (.oneOf k :: ·)
    | c => (charAtoms cs).map (.char c :: ·)
termination_by cs => cs.length

/-- The atoms of a segment. A lone star stands for a name that is not empty. -/
def segmentAtoms (segment : List Char) : Except SegmentFault (List Atom) :=
  if segment == ['*'] then .ok [.notSlash, .run] else charAtoms segment

def doubleStar : List Char := ['*', '*']

def collapse : List (List Char) → List (List Char)
  | a :: b :: rest =>
    if a == doubleStar && b == doubleStar then collapse (b :: rest) else a :: collapse (b :: rest)
  | segments => segments

def restAtoms : List (List Char) → Except SegmentFault (List Atom)
  | [] => .ok [.boundary]
  | [segment] =>
    if segment == doubleStar then .ok [.char '/']
    else (segmentAtoms segment).map fun as => .char '/' :: as ++ [.boundary]
  | segment :: rest =>
    if segment == doubleStar then (restAtoms rest).map (.innerDirs :: ·)
    else do
      let as ← segmentAtoms segment
      let bs ← restAtoms rest
      return .char '/' :: as ++ bs

def allAtoms : List (List Char) → Except SegmentFault (List Atom)
  | [] => .ok []
  | first :: rest =>
    if first == doubleStar then
      match rest with
      | [] => .ok []
      | second :: rest => do
        let as ← segmentAtoms second
        let bs ← restAtoms rest
        return .leadingDirs :: as ++ bs
    else do
      let as ← segmentAtoms first
      let bs ← restAtoms rest
      return as ++ bs

/-- The segments a pattern is matched by: without the leading slash, or with stars in front when
there is one segment only, and with stars for what is below a trailing slash. -/
def normalSegments (text : List Char) : List (List Char) :=
  let segments := Text.splitAt '/' text
  let anchored :=
    match segments with
    | [] :: rest => rest
    | [s] | [s, []] => if s == doubleStar then segments else doubleStar :: segments
    | _ => segments
  let closed :=
    if 1 < anchored.length && anchored.getLast? == some [] then anchored.dropLast ++ [doubleStar]
    else anchored
  collapse closed

def Atom.isValid : Atom → Bool
  | .oneOf k => k.items.all (·.isValid)
  | _ => true

/-- The rule for a pattern's text, without a leading mark of negation. -/
def ruleOf (text : List Char) : Except PatternError Rule :=
  let segments := normalSegments text
  if segments.isEmpty then .error .noSegment
  else if segments == [doubleStar] then
    .ok (if text.getLast? == some '/' then .belowDirectory else .everything)
  else if segments == [doubleStar, ['*']] then .ok .everything
  else if segments == [doubleStar, ['*'], doubleStar] then .ok .belowDirectory
  else
    match allAtoms segments with
    | .error .unclosedClass => .ok .nothing
    | .error .danglingEscape => .error .danglingEscape
    | .ok as => if as.all Atom.isValid then .ok (.atoms as) else .error .badRange

def Rule.applies : Rule → List Char → Bool
  | nothing, _ => false
  | everything, path => path.any (· != '\n')
  | belowDirectory, path => path.contains '/'
  | atoms as, path => matchAtoms as path

end Pattern

/-- A pattern; a negated one takes back what earlier patterns matched. -/
structure Pattern where
  negated : Bool
  rule : Pattern.Rule
  deriving DecidableEq, Repr

namespace Pattern

/-- White space at the end is dropped, unless its last character is an escaped space. -/
def trimEnd (line : List Char) : List Char :=
  if ['\\', ' '].isSuffixOf line then line else Text.dropEndWhile Text.isBlank line

def ofChars (line : List Char) : Except PatternError Pattern :=
  match trimEnd line with
  | [] | '#' :: _ | ['/'] => .ok ⟨false, .nothing⟩
  | '!' :: text => (ruleOf text).map fun rule => ⟨true, rule⟩
  | text => (ruleOf text).map fun rule => ⟨false, rule⟩

def ofString (line : String) : Except PatternError Pattern := ofChars line.toList

/-- One leading slash, or else one leading dot and slash, is not part of a path. -/
def relativePath : List Char → List Char
  | '/' :: cs => cs
  | '.' :: '/' :: cs => cs
  | cs => cs

def applies (p : Pattern) (path : List Char) : Bool := p.rule.applies (relativePath path)

end Pattern

/-- Patterns in order; the last that applies decides. -/
structure PatternSpec where
  patterns : List Pattern
  deriving DecidableEq, Repr

namespace PatternSpec

def ofLines (lines : List String) : Except PatternError PatternSpec :=
  ((lines.filter (· != "")).mapM Pattern.ofString).map PatternSpec.mk

def ignores (spec : PatternSpec) (path : String) : Bool :=
  match spec.patterns.reverse.find? (·.applies path.toList) with
  | some p => !p.negated
  | none => false

end PatternSpec

end ImportGroups
