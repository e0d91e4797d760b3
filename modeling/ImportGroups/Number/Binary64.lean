/-!
Floating-point numbers of 64 bits.

A finite number is a sign, a mantissa below 2^53 and a power of two. A decimal is rounded to the
nearest number, and a number is written with the fewest decimal digits that round back to it, the
nearest such decimal; a tie goes to the even neighbour both ways.
-/

namespace ImportGroups

inductive Binary64 where
  | finite (negative : Bool) (mantissa : Nat) (exponent : Int)
  | infinite (negative : Bool)
  | nan
  deriving DecidableEq, Repr

namespace Binary64

/-- `num / den` rounded to the nearest integer, a half to the even neighbour. -/
def roundDiv (num den : Nat) : Nat :=
  let q := num / den
  let r := num % den
  if 2 * r < den then q
  else if den < 2 * r then q + 1
  else if q % 2 == 0 then q else q + 1

def scale (base num den : Nat) (e : Int) : Nat × Nat :=
  if 0 ≤ e then (num * Nat.pow base e.toNat, den) else (num, den * Nat.pow base (-e).toNat)

def binaryExponent (num den : Nat) : Int :=
  let e : Int := (Nat.log2 num : Int) - Nat.log2 den - 52
  let (a, b) := scale 2 num den (-e)
  if a < Nat.pow 2 52 * b then e - 1 else if Nat.pow 2 53 * b ≤ a then e + 1 else e

def minExponent : Int := -1074

def maxExponent : Int := 971

def ofRatio (negative : Bool) (num den : Nat) : Binary64 :=
  if num == 0 then .finite negative 0 minExponent
  else
    let e := max (binaryExponent num den) minExponent
    let (a, b) := scale 2 num den (-e)
    let m := roundDiv a b
    let (m, e) := if m == Nat.pow 2 53 then (Nat.pow 2 52, e + 1) else (m, e)
    if maxExponent < e then .infinite negative else .finite negative m e

def ofDecimal (negative : Bool) (digits : Nat) (e : Int) : Binary64 :=
  let size : Int := (Nat.toDigits 10 digits).length
  if digits == 0 then .finite negative 0 minExponent
  else if 400 < size + e then .infinite negative
  else if size + e < -400 then .finite negative 0 minExponent
  else
    let (num, den) := scale 10 digits 1 e
    ofRatio negative num den

def decimalExponent (num den : Nat) : Nat → Int → Int
  | 0, guess => guess
  | fuel + 1, guess =>
    let (a, b) := scale 10 num den (-(guess + 1))
    if b ≤ a then decimalExponent num den fuel (guess + 1) else guess

/-- The decimal on the grid `10^unit` next to a number, if it rounds back to it: the number is `4 *
m * 2^e4`, and what lies between `4 * m - below` and `4 * m + 2`, ends included for an even `m`,
rounds to it. -/
def onGrid? (m below : Nat) (e4 unit : Int) : Option Nat :=
  let (num, den) := scale 2 (4 * m) 1 e4
  let (num, den) := scale 10 num den (-unit)
  let c := num / den
  let fits (d : Nat) : Bool :=
    let (a, b) := scale 10 d 1 unit
    let (lo, x) := scale 2 (4 * m - below) 1 e4
    let (hi, y) := scale 2 (4 * m + 2) 1 e4
    if m % 2 == 0 then lo * b ≤ a * x && a * y ≤ hi * b else lo * b < a * x && a * y < hi * b
  let r := num % den
  let nearFirst := 2 * r < den || (2 * r == den && c % 2 == 0)
  let (first, second) := if nearFirst then (c, c + 1) else (c + 1, c)
  if 0 < first && fits first then some first else if 0 < second && fits second then some second
  else none

/-- The fewest digits that round back, as an integer and a power of ten. -/
def shortestFrom (m below : Nat) (e4 top : Int) : Nat → Nat → Nat × Int
  | 0, n => ((onGrid? m below e4 (top - n)).getD 0, top - n)
  | fuel + 1, n =>
    match onGrid? m below e4 (top - n) with
    | some d => (d, top - n)
    | none => shortestFrom m below e4 top fuel (n + 1)

def shortest (m : Nat) (e : Int) : Nat × Int :=
  let below := if m == Nat.pow 2 52 && minExponent < e then 1 else 2
  let (num, den) := scale 2 m 1 e
  let guess : Int := -330
  shortestFrom m below (e - 2) (decimalExponent num den 700 guess) 17 0

def padLeft (width : Nat) (s : String) : String :=
  .ofList (List.replicate (width - s.length) '0') ++ s

/-- Positional from `0.0001` up to sixteen digits before the point, with at least one digit after
it; otherwise with an exponent of at least two digits and its sign. -/
def positional (digits : String) (point : Int) : String :=
  if point ≤ -4 || 16 < point then
    let e := point - 1
    let sign := if e < 0 then "-" else "+"
    let mantissa := match digits.toList with
      | [d] => String.ofList [d]
      | d :: ds => .ofList (d :: '.' :: ds)
      | [] => "0"
    mantissa ++ "e" ++ sign ++ padLeft 2 (toString e.natAbs)
  else if point ≤ 0 then "0." ++ .ofList (List.replicate (-point).toNat '0') ++ digits
  else
    let n := point.toNat
    let ds := digits.toList
    if ds.length ≤ n then digits ++ .ofList (List.replicate (n - ds.length) '0') ++ ".0"
    else .ofList (ds.take n ++ '.' :: ds.drop n)

def text : Binary64 → String
  | nan => "nan"
  | infinite negative => if negative then "-inf" else "inf"
  | finite negative m e =>
    let sign := if negative then "-" else ""
    if m == 0 then sign ++ "0.0"
    else
      let (d, unit) := shortest m e
      let digits := Nat.toDigits 10 d
      let kept := (digits.reverse.dropWhile (· == '0')).reverse
      sign ++ positional (.ofList kept) (digits.length + unit)

def isZero : Binary64 → Bool
  | finite _ m _ => m == 0
  | _ => false

def isNegative : Binary64 → Bool
  | finite negative _ _ => negative
  | infinite negative => negative
  | nan => false

def neg : Binary64 → Binary64
  | finite negative m e => finite (!negative) m e
  | infinite negative => infinite (!negative)
  | nan => nan

def ratio? : Binary64 → Option (Int × Nat)
  | finite negative m e =>
    let (num, den) := scale 2 m 1 e
    some (if negative then -(num : Int) else num, den)
  | _ => none

/-- The product of two numbers, rounded; `none` if it is no number. -/
def mul (x y : Binary64) : Option Binary64 :=
  let negative := x.isNegative != y.isNegative
  match x, y with
  | finite _ m e, finite _ n f =>
    let (num, den) := scale 2 (m * n) 1 (e + f)
    some (ofRatio negative num den)
  | nan, _ | _, nan => none
  | x, y => if x.isZero || y.isZero then none else some (.infinite negative)

/-- The sum of two numbers, rounded; `none` if it is no number. -/
def add (x y : Binary64) : Option Binary64 :=
  match x, y, x.ratio?, y.ratio? with
  | _, _, some (m, d), some (n, e) =>
    let num : Int := m * e + n * d
    let negative := if num == 0 then x.isNegative && y.isNegative else num < 0
    some (ofRatio negative num.natAbs (d * e))
  | infinite p, infinite q, _, _ => if p == q then some (infinite p) else none
  | infinite p, finite .., _, _ => some (infinite p)
  | finite .., infinite q, _, _ => some (infinite q)
  | _, _, _, _ => none

end Binary64

end ImportGroups
