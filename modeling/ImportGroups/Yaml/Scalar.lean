import ImportGroups.Number.Numeral
import ImportGroups.Text.Base64
import ImportGroups.Text.Split
import ImportGroups.Yaml.Tag
import ImportGroups.Yaml.Value

/-!
Values of scalars.

A type may be given to a scalar that does not have its form, so every reader here takes any text.
-/

namespace ImportGroups.Yaml

abbrev ScalarResult := Except LoadError

def orMalformed : Option α → ScalarResult α
  | some a => .ok a
  | none => .error .malformedNumber

/-- The sign in front of a number without its underscores, and what follows it. -/
def signed (cs : List Char) : ScalarResult (Bool × List Char) :=
  match cs.filter (· != '_') with
  | [] => .error .emptyNumber
  | cs => .ok (Numeral.splitSign cs)

/-- The number that digits between colons make, the base being sixty. -/
def sixties (parts : List Int) : Int := parts.foldl (fun n d => n * 60 + d) 0

def unsignedInt (v : Version) (cs : List Char) : ScalarResult Int :=
  match cs with
  | ['0'] => .ok 0
  | '0' :: 'b' :: ds => orMalformed (Numeral.integer? 2 ds)
  | '0' :: 'x' :: ds => orMalformed (Numeral.integer? 16 ds)
  | '0' :: 'o' :: ds => orMalformed (Numeral.integer? 8 ds)
  | [] => .error (if v == .v11 then .emptyNumber else .malformedNumber)
  | c :: _ =>
    if v == .v11 && c == '0' then orMalformed (Numeral.integer? 8 cs)
    else if v == .v11 && cs.contains ':' then
      orMalformed (((Text.splitAt ':' cs).mapM (Numeral.integer? 10)).map sixties)
    else orMalformed (Numeral.integer? 10 cs)

def intValue (v : Version) (cs : List Char) : ScalarResult Value := do
  let (negative, digits) ← signed cs
  let n ← unsignedInt v digits
  return .int (if negative then -n else n)

/-- A floating-point number, `none` being the one that equals no number. -/
abbrev FloatValue := Option Binary64

/-- The sum of the parts, each of them sixty times what the one after it counts. The last part comes
first, and every step is rounded. -/
def sixtiesSum : List FloatValue → Nat → FloatValue → ScalarResult FloatValue
  | [], _, sum => .ok sum
  | x :: xs, base, sum =>
    match Binary64.ofRatio false base 1 with
    | .infinite _ => .error .overflow
    | unit => sixtiesSum xs (base * 60) (do (← (← x).mul unit).add (← sum))

/-- A floating-point number after its sign. -/
def unsignedFloat (v : Version) (cs : List Char) : ScalarResult FloatValue :=
  if v != .v12 && cs.contains ':' then do
    let parts ← orMalformed ((Text.splitAt ':' cs).mapM Numeral.float?)
    sixtiesSum parts.reverse 1 (some (.ofRatio false 0 1))
  else orMalformed (Numeral.float? cs)

def floatValue (v : Version) (cs : List Char) : ScalarResult Value := do
  let (negative, digits) ← signed (cs.map Char.toLower)
  if digits == ".inf".toList then return .float (.infinite negative)
  else if digits == ".nan".toList then return .float .nan
  else
    match ← unsignedFloat v digits with
    | some x => return .float (if negative then x.neg else x)
    | none => return .notANumber

def boolValue (s : String) : ScalarResult Value :=
  let lower := s.toLower
  if ["yes", "y", "true", "on"].contains lower then .ok (.bool true)
  else if ["no", "n", "false", "off"].contains lower then .ok (.bool false)
  else .error .malformedBoolean

def timestampValue (s : String) : ScalarResult Value :=
  let cs := withoutLastBreak s.toList
  match dateFields? cs, momentText? cs with
  | some fields, _ =>
    let d := dateOf fields
    if d.isValid then .ok (.date d) else .error .malformedNumber
  | none, some (fields, clock) => (momentOf (dateOf fields) clock).map .moment
  | none, none => .error .invalid

def binaryValue (cs : List Char) : ScalarResult Value :=
  match Text.decodeBase64? cs with
  | some bytes => .ok (.bytes bytes)
  | none => .error .invalid

def scalarValue (v : Version) (tag : Tag) (text : String) : ScalarResult Value :=
  match tag with
  | .null => .ok .null
  | .bool => boolValue text
  | .int => intValue v text.toList
  | .float => floatValue v text.toList
  | .timestamp => timestampValue text
  | .str => .ok (.str text)
  | .binary => binaryValue text.toList
  | _ => .error .invalid

end ImportGroups.Yaml
