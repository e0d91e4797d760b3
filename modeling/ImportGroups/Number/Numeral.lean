import ImportGroups.Number.Binary64
import ImportGroups.Text.Blank
import ImportGroups.Text.Digit
import ImportGroups.Text.Split

/-!
Numbers as they are written.

Blanks may stand around a number, and the digits of every script count as decimal digits. Decimal
integers are read and written up to a length only.
-/

namespace ImportGroups.Numeral

/-- No more decimal digits are read or written at a time. -/
def digitLimit : Nat := 4300

/-- A space for other blanks than those of ASCII, and an ASCII digit for every decimal digit. -/
def plain (c : Char) : Char :=
  if c.toNat < 0x80 then c
  else if Text.isBlank c then ' '
  else
    match Text.decimalValue? c with
    | some d => Char.ofNat ('0'.toNat + d)
    | none => c

def isSpace (c : Char) : Bool := c == ' ' || (0x09 ≤ c.toNat && c.toNat ≤ 0x0D)

def trimmed (cs : List Char) : List Char := Text.trimWhile isSpace (cs.map plain)

/-- A sign in front, minus being `true`, and what follows it. -/
def splitSign : List Char → Bool × List Char
  | '-' :: cs => (true, cs)
  | '+' :: cs => (false, cs)
  | cs => (false, cs)

def digitValue? (c : Char) : Option Nat :=
  if '0' ≤ c && c ≤ '9' then some (c.toNat - '0'.toNat)
  else if 'a' ≤ c && c ≤ 'z' then some (c.toNat - 'a'.toNat + 10)
  else if 'A' ≤ c && c ≤ 'Z' then some (c.toNat - 'A'.toNat + 10)
  else none

def natural? (base : Nat) (cs : List Char) : Option Nat := do
  guard (!cs.isEmpty && (base != 10 || cs.length ≤ digitLimit))
  let ds ← cs.mapM digitValue?
  guard (ds.all (· < base))
  return ds.foldl (fun n d => n * base + d) 0

/-- The letters that may stand after a zero in front of a number of the base. -/
def baseMarks (base : Nat) : List Char :=
  if base == 2 then ['b', 'B'] else if base == 8 then ['o', 'O']
  else if base == 16 then ['x', 'X'] else []

def withoutMark (base : Nat) : List Char → List Char
  | '0' :: c :: cs => if (baseMarks base).contains c then cs else '0' :: c :: cs
  | cs => cs

def integer? (base : Nat) (cs : List Char) : Option Int := do
  let (negative, digits) := splitSign (trimmed cs)
  let n ← natural? base (withoutMark base digits)
  return if negative then -(n : Int) else n

def splitFirst (c : Char) (cs : List Char) : List Char × Option (List Char) :=
  match cs.dropWhile (· != c) with
  | [] => (cs, none)
  | _ :: rest => (cs.takeWhile (· != c), some rest)

/-- The power of ten after the mark of an exponent; zero if there is no mark. -/
def exponent? : Option (List Char) → Option Int
  | none => some 0
  | some cs =>
    let (negative, digits) := splitSign cs
    let significant := digits.dropWhile (· == '0')
    if digits.isEmpty || !digits.all Char.isDigit then none
    else
      -- Longer exponents are out of all range.
      let n := ((natural? 10 (significant.take 20)).getD 0 : Nat)
      some (if negative then -(n : Int) else n)

/-- Digits with an optional point among them and an optional exponent, in lower case. -/
def decimal? (negative : Bool) (cs : List Char) : Option Binary64 := do
  let (mantissa, power) := splitFirst 'e' cs
  let exponent ← exponent? power
  let (whole, fraction?) := splitFirst '.' mantissa
  let fraction := fraction?.getD []
  let digits := whole ++ fraction
  guard (!digits.isEmpty && digits.all Char.isDigit)
  let n := digits.foldl (fun n c => n * 10 + (c.toNat - '0'.toNat)) 0
  return .ofDecimal negative n (exponent - fraction.length)

/-- A floating-point number as it may be written in lower case, `none` inside being the one that
equals no number. -/
def float? (cs : List Char) : Option (Option Binary64) :=
  let (negative, digits) := splitSign (trimmed cs)
  let word := String.ofList digits
  if word == "inf" || word == "infinity" then some (some (.infinite negative))
  else if word == "nan" then some none
  else (decimal? negative digits).map some

end ImportGroups.Numeral
