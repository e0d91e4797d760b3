import ImportGroups.Text.Split
import ImportGroups.Yaml.Moment
import ImportGroups.Yaml.ScalarText

/-!
Types of nodes.

The form of a plain scalar decides its type, by the rules of the version in use. Underscores may
stand between digits. In version 1.1 the words yes, no, on and off are booleans too, a leading zero
makes a number octal, and colons separate sexagesimal digits.
-/

namespace ImportGroups.Yaml

inductive Tag where
  | null
  | bool
  | int
  | float
  | timestamp
  | str
  | binary
  | seq
  | map
  | set
  | orderedMap
  | pairs
  | merge
  | defaultValue
  | unknown
  deriving DecidableEq, Repr, Inhabited

namespace Tag

def namespaceText : String := "tag:yaml.org,2002:"

def ofText (s : String) : Tag :=
  let names : List (String × Tag) :=
    [("null", null), ("bool", bool), ("int", int), ("float", float), ("timestamp", timestamp),
     ("str", str), ("binary", binary), ("seq", seq), ("map", map), ("set", set),
     ("omap", orderedMap), ("pairs", pairs), ("merge", merge), ("value", defaultValue)]
  ((names.map fun (n, t) => (namespaceText ++ n, t)).lookup s).getD unknown

end Tag

def isDigitOrGap (c : Char) : Bool := c.isDigit || c == '_'

def dropSign : List Char → List Char
  | '-' :: cs | '+' :: cs => cs
  | cs => cs

/-- A non-empty run of characters that satisfy `p`. -/
def isRun (p : Char → Bool) (cs : List Char) : Bool := !cs.isEmpty && cs.all p

def isExponent (needsSign : Bool) : List Char → Bool
  | e :: cs =>
    (e == 'e' || e == 'E') &&
      (if needsSign then cs.head? == some '-' || cs.head? == some '+' else true) &&
      isRun Char.isDigit (dropSign cs)
  | [] => false

/-- Sexagesimal digits after a colon each. -/
def isSixty (part : List Char) : Bool :=
  match part with
  | [d] => d.isDigit
  | [c, d] => '0' ≤ c && c ≤ '5' && d.isDigit
  | _ => false

def isInfinity (cs : List Char) : Bool :=
  [".inf", ".Inf", ".INF"].contains (String.ofList cs)

def isNotANumber (cs : List Char) : Bool :=
  [".nan", ".NaN", ".NAN"].contains (String.ofList cs)

def isDecimal (cs : List Char) : Bool :=
  let whole := cs.takeWhile isDigitOrGap
  let rest := cs.dropWhile isDigitOrGap
  whole.head?.any Char.isDigit &&
    match rest with
    | '.' :: rest =>
      let rest := rest.dropWhile isDigitOrGap
      rest.isEmpty || isExponent false rest
    | rest => isExponent false rest

def isFraction : List Char → Bool
  | '.' :: cs =>
    let rest := cs.dropWhile isDigitOrGap
    cs.head?.any isDigitOrGap && (rest.isEmpty || isExponent true rest)
  | _ => false

def isSexagesimalFloat (cs : List Char) : Bool :=
  match Text.splitAt '.' cs with
  | [whole, fraction] =>
    fraction.all isDigitOrGap &&
      match Text.splitAt ':' whole with
      | first :: part :: parts =>
        first.head?.any Char.isDigit && first.all isDigitOrGap && (part :: parts).all isSixty
      | _ => false
  | _ => false

def isFloat (v : Version) (cs : List Char) : Bool :=
  let unsigned := dropSign cs
  isDecimal unsigned || isInfinity unsigned || isNotANumber cs ||
    if v == .v11 then isFraction cs || isSexagesimalFloat unsigned else isFraction unsigned

def isOctalOrGap (c : Char) : Bool := ('0' ≤ c && c ≤ '7') || c == '_'

def isBinaryOrGap (c : Char) : Bool := c == '0' || c == '1' || c == '_'

def isHexOrGap (c : Char) : Bool := (hexValue? c).isSome || c == '_'

def isInt (v : Version) (cs : List Char) : Bool :=
  let unsigned := dropSign cs
  (match unsigned with
    | '0' :: 'b' :: ds => isRun isBinaryOrGap ds
    | '0' :: 'x' :: ds => isRun isHexOrGap ds
    | '0' :: 'o' :: ds => v != .v11 && isRun isOctalOrGap ds
    | _ => false) ||
    if v == .v11 then
      isRun isOctalOrGap unsigned ||
        (unsigned.head?.any (fun c => '1' ≤ c && c ≤ '9') &&
          match Text.splitAt ':' unsigned with
          | first :: parts => first.all isDigitOrGap && parts.all isSixty
          | [] => false)
    else isRun isDigitOrGap unsigned

def isBool (v : Version) (s : String) : Bool :=
  ["true", "True", "TRUE", "false", "False", "FALSE"].contains s ||
    (v == .v11 && ["y", "Y", "yes", "Yes", "YES", "n", "N", "no", "No", "NO", "on", "On", "ON",
      "off", "Off", "OFF"].contains s)

def isNull (s : String) : Bool := ["", "~", "null", "Null", "NULL"].contains s

def tagOfForm (v : Version) (cs : List Char) : Tag :=
  let s := String.ofList cs
  let startsNumber := cs.head?.any fun c => c.isDigit || c == '-' || c == '+'
  if isBool v s then .bool
  else if (startsNumber || cs.head? == some '.') && isFloat v cs then .float
  else if startsNumber && isInt v cs then .int
  else if s == "<<" then .merge
  else if isNull s then .null
  else if isTimestamp cs then .timestamp
  else if s == "=" then .defaultValue
  else if ["!", "&", "*"].contains s then .unknown
  else .str

/-- Without a line feed at the end of a text that holds something else. -/
def withoutLastBreak (cs : List Char) : List Char :=
  if 1 < cs.length && cs.getLast? == some '\n' then cs.dropLast else cs

/-- The type of a scalar that is left to its form; `none` for a version without rules. A line feed
at the end does not count. -/
def plainTag (v : Version) (s : String) : Option Tag :=
  if v == .v11 || v == .v12 then some (tagOfForm v (withoutLastBreak s.toList)) else none

end ImportGroups.Yaml
