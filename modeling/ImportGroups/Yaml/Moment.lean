import ImportGroups.Yaml.LoadError
import ImportGroups.Number.Numeral
import ImportGroups.Text.Quoted

/-!
Dates and moments.

A moment is a date with a time of day. One with a zone is a point in time, and two of them are
compared by that; moments without a zone are compared as they are written. The two kinds have no
order between them.
-/

namespace ImportGroups.Yaml

structure Date where
  year : Nat
  month : Nat
  day : Nat
  deriving DecidableEq, Repr

/-- A zone by its offset from universal time and its name as it was written. -/
structure Zone where
  minutes : Int
  name : String
  deriving DecidableEq, Repr

structure Moment where
  date : Date
  hour : Nat
  minute : Nat
  second : Nat
  microsecond : Nat := 0
  zone? : Option Zone := none
  deriving DecidableEq, Repr

def padded (width n : Nat) : String := Binary64.padLeft width (toString n)

namespace Date

def isLeapYear (year : Nat) : Bool := year % 4 == 0 && (year % 100 != 0 || year % 400 == 0)

def daysInMonth (year month : Nat) : Nat :=
  if month == 2 then if isLeapYear year then 29 else 28
  else if [4, 6, 9, 11].contains month then 30 else 31

def isValid (d : Date) : Bool :=
  1 ≤ d.year && d.year ≤ 9999 && 1 ≤ d.month && d.month ≤ 12 &&
    1 ≤ d.day && d.day ≤ daysInMonth d.year d.month

def rank (d : Date) : Nat := (d.year * 100 + d.month) * 100 + d.day

def dayNumber (d : Date) : Nat :=
  let y := d.year - 1
  let before := ((List.range d.month).drop 1).foldl (fun n m => n + daysInMonth d.year m) 0
  365 * y + y / 4 - y / 100 + y / 400 + before + d.day

/-- The next day; `none` after the last one of the calendar. -/
def next? (d : Date) : Option Date :=
  if d.day < daysInMonth d.year d.month then some { d with day := d.day + 1 }
  else if d.month < 12 then some ⟨d.year, d.month + 1, 1⟩
  else if d.year < 9999 then some ⟨d.year + 1, 1, 1⟩
  else none

def text (d : Date) : String := padded 4 d.year ++ "-" ++ padded 2 d.month ++ "-" ++ padded 2 d.day

/-- The text of a date inside another value. -/
def literal (d : Date) : String :=
  "datetime.date(" ++ ", ".intercalate ([d.year, d.month, d.day].map toString) ++ ")"

end Date

namespace Zone

def text (z : Zone) : String :=
  let n := z.minutes.natAbs
  (if z.minutes < 0 then "-" else "+") ++ padded 2 (n / 60) ++ ":" ++ padded 2 (n % 60)

/-- The offset as days and seconds, of which only the days may be negative. -/
def literal (z : Zone) : String :=
  let days := z.minutes.fdiv 1440
  let seconds := z.minutes.fmod 1440 * 60
  let parts := (if days == 0 then [] else ["days=" ++ toString days]) ++
    (if seconds == 0 then [] else ["seconds=" ++ toString seconds])
  let offset := if parts.isEmpty then "0" else ", ".intercalate parts
  "datetime.timezone(datetime.timedelta(" ++ offset ++ "), " ++ Text.quote z.name ++ ")"

end Zone

namespace Moment

def isValid (m : Moment) : Bool :=
  m.date.isValid && m.hour < 24 && m.minute < 60 && m.second < 60

/-- Microseconds since the beginning of the calendar, by the clock of the zone. -/
def clock (m : Moment) : Nat :=
  (((m.date.dayNumber * 24 + m.hour) * 60 + m.minute) * 60 + m.second) * 1000000 + m.microsecond

/-- Microseconds since the beginning of the calendar, in universal time. -/
def instant (m : Moment) : Int :=
  (m.clock : Int) - (m.zone?.map (·.minutes)).getD 0 * 60000000

def compare? (a b : Moment) : Option Ordering :=
  if a.zone?.isSome == b.zone?.isSome then some (compare a.instant b.instant) else none

/-- One second later; `none` after the end of the calendar. -/
def next? (m : Moment) : Option Moment :=
  if m.second < 59 then some { m with second := m.second + 1 }
  else if m.minute < 59 then some { m with minute := m.minute + 1, second := 0 }
  else if m.hour < 23 then some { m with hour := m.hour + 1, minute := 0, second := 0 }
  else m.date.next?.map fun date => { m with date, hour := 0, minute := 0, second := 0 }

def text (m : Moment) : String :=
  m.date.text ++ " " ++ padded 2 m.hour ++ ":" ++ padded 2 m.minute ++ ":" ++ padded 2 m.second ++
    (if m.microsecond == 0 then "" else "." ++ padded 6 m.microsecond) ++
    (m.zone?.map Zone.text).getD ""

/-- The text of a moment inside another value. Seconds and microseconds are left out if they are
zero, down to the last that is not. -/
def literal (m : Moment) : String :=
  let d := m.date
  let small :=
    if m.microsecond != 0 then [m.second, m.microsecond]
    else if m.second != 0 then [m.second] else []
  let parts := ([d.year, d.month, d.day, m.hour, m.minute] ++ small).map toString
  let zone := (m.zone?.map fun z => ["tzinfo=" ++ z.literal]).getD []
  "datetime.datetime(" ++ ", ".intercalate (parts ++ zone) ++ ")"

end Moment

def isInlineBlank (c : Char) : Bool := c == ' ' || c == '\t'

/-- The text is made up of at least `lo` and at most `hi` digits. -/
def isDigits (lo hi : Nat) (cs : List Char) : Bool :=
  lo ≤ cs.length && cs.length ≤ hi && cs.all Char.isDigit

def digitsNumber (cs : List Char) : Nat :=
  cs.foldl (fun n c => n * 10 + (c.toNat - '0'.toNat)) 0

/-- A year of four digits, and month and day of one or two, between dashes. -/
def dateFields? (cs : List Char) : Option (List Char × List Char × List Char) :=
  match Text.splitAt '-' cs with
  | [y, m, d] =>
    if isDigits 4 4 y && isDigits 1 2 m && isDigits 1 2 d then some (y, m, d) else none
  | _ => none

/-- The date of two digits for month and day each that stands for itself. -/
def isPlainDate (cs : List Char) : Bool :=
  (dateFields? cs).any fun (_, m, d) => m.length == 2 && d.length == 2

/-- A zone as it is written: its hours and minutes with their sign, if it is not universal time. -/
inductive ZoneText where
  | universal
  | offset (negative : Bool) (hours minutes : List Char)

def zoneText? : List Char → Option ZoneText
  | ['Z'] => some .universal
  | s :: cs =>
    if s == '-' || s == '+' then
      match Text.splitAt ':' cs with
      | [h] => if isDigits 1 2 h then some (.offset (s == '-') h []) else none
      | [h, m] =>
        if isDigits 1 2 h && isDigits 2 2 m then some (.offset (s == '-') h m) else none
      | _ => none
    else none
  | [] => none

/-- A time of day as it is written. -/
structure ClockText where
  hour : List Char
  minute : List Char
  second : List Char
  fraction : List Char
  zone? : Option (ZoneText × String)

def clockText? (cs : List Char) : Option ClockText :=
  let isClockChar := fun (c : Char) => c.isDigit || c == ':'
  let clock := cs.takeWhile isClockChar
  let rest := cs.dropWhile isClockChar
  let (fraction, rest) := match rest with
    | '.' :: rest => (rest.takeWhile Char.isDigit, rest.dropWhile Char.isDigit)
    | rest => ([], rest)
  match Text.splitAt ':' clock with
  | [h, m, s] =>
    if isDigits 1 2 h && isDigits 2 2 m && isDigits 2 2 s then
      if rest.isEmpty then some ⟨h, m, s, fraction, none⟩
      else
        let zone := rest.dropWhile isInlineBlank
        (zoneText? zone).map fun z => ⟨h, m, s, fraction, some (z, .ofList zone)⟩
    else none
  | _ => none

/-- A date and, after a letter or blanks, a time of day as they are written. -/
def momentText? (cs : List Char) : Option ((List Char × List Char × List Char) × ClockText) := do
  let isDateChar := fun (c : Char) => c.isDigit || c == '-'
  let date ← dateFields? (cs.takeWhile isDateChar)
  let clock ←
    match cs.dropWhile isDateChar with
    | 'T' :: rest | 't' :: rest => clockText? rest
    | c :: rest => if isInlineBlank c then clockText? (rest.dropWhile isInlineBlank) else none
    | [] => none
  return (date, clock)

def isTimestamp (cs : List Char) : Bool := isPlainDate cs || (momentText? cs).isSome

/-- Six digits of a fraction, rounded by the seventh. -/
def fractionNumber (cs : List Char) : Nat :=
  let six := digitsNumber ((cs ++ List.replicate 6 '0').take 6)
  if (cs.drop 6).head?.any ('5' ≤ ·) then six + 1 else six

/-- A zone lies less than a day away from universal time. -/
def zoneOf (z : ZoneText) (name : String) : Except LoadError Zone :=
  match z with
  | .universal => .ok ⟨0, name⟩
  | .offset negative hours minutes =>
    let n := digitsNumber hours * 60 + digitsNumber minutes
    if 1440 ≤ n then .error .malformedNumber
    else .ok ⟨if negative then -(n : Int) else n, name⟩

def dateOf : List Char × List Char × List Char → Date
  | (y, m, d) => ⟨digitsNumber y, digitsNumber m, digitsNumber d⟩

def momentOf (date : Date) (c : ClockText) : Except LoadError Moment := do
  let zone? ← c.zone?.mapM fun (z, name) => zoneOf z name
  let micros := fractionNumber c.fraction
  let m : Moment :=
    { date, zone?
      hour := digitsNumber c.hour, minute := digitsNumber c.minute, second := digitsNumber c.second
      microsecond := if micros == 1000000 then 0 else micros }
  if !m.isValid then throw .malformedNumber
  else if micros == 1000000 then
    match m.next? with
    | some m => return m
    | none => throw .overflow
  else return m

end ImportGroups.Yaml
