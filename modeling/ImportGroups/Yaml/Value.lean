import ImportGroups.Number.Binary64
import ImportGroups.Text.Quoted
import ImportGroups.Yaml.Moment

/-!
Values of YAML documents.

Numbers and booleans are the same key when they are equal as numbers, and they have an order among
them. Other values have an order with values of their own kind only.
-/

namespace ImportGroups.Yaml

open Text (Bytes)

inductive Value where
  | null
  | bool (b : Bool)
  | int (n : Int)
  | float (x : Binary64)
  /-- A number that was written as none: it equals nothing, not even itself. -/
  | notANumber
  | str (s : String)
  | date (d : Date)
  | moment (m : Moment)
  | bytes (bs : Bytes)
  /-- A sequence that is a key or a part of one. -/
  | tuple (items : List Value)
  | seq (items : List Value)
  | map (pairs : List (Value × Value))
  | set (members : List Value)
  deriving Inhabited

namespace Value

def isFalsy : Value → Bool
  | null => true
  | bool b => !b
  | int n => n == 0
  | float x => x.isZero
  | str s => s == ""
  | bytes bs => bs.isEmpty
  | tuple items => items.isEmpty
  | seq items => items.isEmpty
  | map pairs => pairs.isEmpty
  | set members => members.isEmpty
  | _ => false

def ratio? : Value → Option (Int × Nat)
  | bool b => some (if b then 1 else 0, 1)
  | int n => some (n, 1)
  | float x => x.ratio?
  | _ => none

def infinity? : Value → Option Bool
  | float (.infinite negative) => some negative
  | _ => none

def isNumber : Value → Bool
  | bool _ | int _ | float _ | notANumber => true
  | _ => false

/-- The order of two numbers. What is no number lies neither before nor after another. -/
def compareNumbers (a b : Value) : Ordering :=
  match a.ratio?, b.ratio?, a.infinity?, b.infinity? with
  | some (m, d), some (n, e), _, _ => compare (m * e) (n * d)
  | some _, _, _, some negative => if negative then .gt else .lt
  | _, some _, some negative, _ => if negative then .lt else .gt
  | _, _, some p, some q => if p == q then .eq else if p then .lt else .gt
  | _, _, _, _ => .eq

/-- Two numbers are one key. There is one key for the floating-point value that is no number. -/
def sameNumber (a b : Value) : Bool :=
  match a, b with
  | float .nan, float .nan => true
  | float .nan, _ | _, float .nan | notANumber, _ | _, notANumber => false
  | a, b => a.isNumber && b.isNumber && a.compareNumbers b == .eq

def sameKey : Value → Value → Bool
  | null, null => true
  | str s, str t => s == t
  | date d, date e => d == e
  | moment m, moment n => m.compare? n == some .eq
  | bytes bs, bytes cs => bs == cs
  | tuple xs, tuple ys => sameItems xs ys
  | a, b => sameNumber a b
where
  sameItems : List Value → List Value → Bool
    | [], [] => true
    | x :: xs, y :: ys => x.sameKey y && sameItems xs ys
    | _, _ => false

def compareStrings (s t : String) : Ordering := if s < t then .lt else if s == t then .eq else .gt

def compareBytes : Bytes → Bytes → Ordering
  | [], [] => .eq
  | [], _ => .lt
  | _, [] => .gt
  | b :: bs, c :: cs => if b == c then compareBytes bs cs else compare b c

/-- The order of two keys; `none` when they have none, as values of different kinds. Tuples are
compared by the first items that differ. -/
def compare? : Value → Value → Option Ordering
  | str s, str t => some (compareStrings s t)
  | date d, date e => some (compare d.rank e.rank)
  | moment m, moment n => m.compare? n
  | bytes bs, bytes cs => some (compareBytes bs cs)
  | tuple xs, tuple ys => compareItems? xs ys
  | a, b => if a.isNumber && b.isNumber then some (a.compareNumbers b) else none
where
  compareItems? : List Value → List Value → Option Ordering
    | [], [] => some .eq
    | [], _ => some .lt
    | _, [] => some .gt
    | x :: xs, y :: ys => if x.sameKey y then compareItems? xs ys else x.compare? y

def isTooLong : Value → Bool
  | int n => Numeral.digitLimit < (Nat.toDigits 10 n.natAbs).length
  | tuple items => anyTooLong items
  | _ => false
where
  anyTooLong : List Value → Bool
    | [] => false
    | x :: xs => x.isTooLong || anyTooLong xs

def literal : Value → String
  | null => "None"
  | bool b => if b then "True" else "False"
  | int n => toString n
  | float x => x.text
  | notANumber => "nan"
  | str s => Text.quote s
  | date d => d.literal
  | moment m => m.literal
  | bytes bs => Text.quoteBytes bs
  | tuple [x] => "(" ++ x.literal ++ ",)"
  | tuple items => "(" ++ ", ".intercalate (literals items) ++ ")"
  | _ => ""
where
  literals : List Value → List String
    | [] => []
    | x :: xs => x.literal :: literals xs

def keyText : Value → String
  | str s => s
  | date d => d.text
  | moment m => m.text
  | v => v.literal

end Value

end ImportGroups.Yaml
