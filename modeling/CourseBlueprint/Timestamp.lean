import CourseBlueprint.Text.Blank
import CourseBlueprint.Text.Decimal

/-!
# Points in time

A `Timestamp` is a date and a time of day in universal time, to the nanosecond; a second may be the
sixtieth, a leap second. It is written as `2020-01-02T03:04:05Z`, with a fraction of 3, 6 or 9
digits where one is needed. Reading follows the internet date and time format with blanks allowed
between its parts, and moves other offsets to universal time.
-/

namespace CourseBlueprint

/-- A date and a time of day in universal time. -/
structure Timestamp where
  year : Int
  month : Nat
  day : Nat
  hour : Nat
  minute : Nat
  second : Nat
  nanosecond : Nat
deriving DecidableEq, Inhabited

namespace Timestamp

/-! ## The calendar -/

/-- The first instant of 1970. -/
def epoch : Timestamp := ⟨1970, 1, 1, 0, 0, 0, 0⟩

/-- Whether a year has a 29th of February. -/
def isLeap (year : Int) : Bool :=
  year % 4 = 0 && (year % 100 ≠ 0 || year % 400 = 0)

/-- The number of days of a month. -/
def daysIn (year : Int) (month : Nat) : Nat :=
  if month = 2 then (if isLeap year then 29 else 28)
  else if month = 4 ∨ month = 6 ∨ month = 9 ∨ month = 11 then 30
  else 31

/-- The years that dates can have. -/
def yearInRange (year : Int) : Bool := -262143 ≤ year && year ≤ 262142

/-- Whether the numbers are those of a date and a time of day. -/
def isValid (t : Timestamp) : Bool :=
  yearInRange t.year && 1 ≤ t.month && t.month ≤ 12 && 1 ≤ t.day && t.day ≤ daysIn t.year t.month &&
    t.hour ≤ 23 && t.minute ≤ 59 && t.second ≤ 60

/-- The same time on the day before. -/
def dayBefore (t : Timestamp) : Timestamp :=
  if 1 < t.day then { t with day := t.day - 1 }
  else if 1 < t.month then { t with month := t.month - 1, day := daysIn t.year (t.month - 1) }
  else { t with year := t.year - 1, month := 12, day := 31 }

/-- The same time on the day after. -/
def dayAfter (t : Timestamp) : Timestamp :=
  if t.day < daysIn t.year t.month then { t with day := t.day + 1 }
  else if t.month < 12 then { t with month := t.month + 1, day := 1 }
  else { t with year := t.year + 1, month := 1, day := 1 }

/-- The universal time of a local time that is ahead by the given minutes, fewer than a day's. -/
def ofLocal (t : Timestamp) (ahead : Int) : Timestamp :=
  let minutes : Int := 60 * t.hour + t.minute - ahead
  let ofDay := (minutes % 1440).toNat
  let t' := { t with hour := ofDay / 60, minute := ofDay % 60 }
  if minutes < 0 then dayBefore t' else if minutes < 1440 then t' else dayAfter t'

/-- The time that is the given number of seconds after the first instant of 1970. Years are counted
from March on, in eras of 400 years of 146097 days, so that a leap day is the last of its year. -/
def ofUnix (seconds nanosecond : Nat) : Timestamp :=
  let days := seconds / 86400 + 719468
  let ofEra := days % 146097
  let yearOfEra := (ofEra - ofEra / 1460 + ofEra / 36524 - ofEra / 146096) / 365
  let ofYear := ofEra - (365 * yearOfEra + yearOfEra / 4 - yearOfEra / 100)
  let fromMarch := (5 * ofYear + 2) / 153
  let month := if fromMarch < 10 then fromMarch + 3 else fromMarch - 9
  let year := yearOfEra + days / 146097 * 400
  let ofDay := seconds % 86400
  { year := if month ≤ 2 then year + 1 else year
    month := month
    day := ofYear - (153 * fromMarch + 2) / 5 + 1
    hour := ofDay / 3600
    minute := ofDay / 60 % 60
    second := ofDay % 60
    nanosecond := nanosecond }

/-! ## Writing -/

/-- Four digits for the years 0 to 9999; others have a sign and four digits or more. -/
def yearText (year : Int) : List Char :=
  if 0 ≤ year ∧ year ≤ 9999 then Text.Decimal.write 4 year.toNat
  else
    let sign := if year < 0 then '-' else '+'
    let digits := Nat.toDigits 10 year.natAbs
    sign :: (List.replicate (4 - digits.length) '0' ++ digits)

/-- No fraction for whole seconds, else the fewest of 3, 6 and 9 digits. -/
def fractionText (nanosecond : Nat) : List Char :=
  if nanosecond = 0 then []
  else if nanosecond % 1000000 = 0 then '.' :: Text.Decimal.write 3 (nanosecond / 1000000)
  else if nanosecond % 1000 = 0 then '.' :: Text.Decimal.write 6 (nanosecond / 1000)
  else '.' :: Text.Decimal.write 9 nanosecond

/-- The written form. -/
def toChars (t : Timestamp) : List Char :=
  yearText t.year ++ '-' :: (Text.Decimal.write 2 t.month ++ '-' :: (Text.Decimal.write 2 t.day ++
    'T' :: (Text.Decimal.write 2 t.hour ++ ':' :: (Text.Decimal.write 2 t.minute ++
      ':' :: (Text.Decimal.write 2 t.second ++ (fractionText t.nanosecond ++ ['Z']))))))

/-- The written form. -/
def text (t : Timestamp) : String := String.ofList t.toChars

/-! ## Reading -/

/-- At least one digit and at most the given number of them, after any blanks. -/
def number? (most : Nat) (cs : List Char) : Option (Nat × List Char) :=
  match Text.Decimal.splitAtMost most (Text.trimLeft cs) with
  | ([], _) => none
  | (ds, rest) => some (Text.Decimal.value ds, rest)

/-- Four digits at most, or any number of them behind a sign. -/
def year? (cs : List Char) : Option (Int × List Char) :=
  match Text.trimLeft cs with
  | '-' :: rest => (unblanked? rest).map fun (n, r) => (-(n : Int), r)
  | '+' :: rest => (unblanked? rest).map fun (n, r) => ((n : Int), r)
  | rest => (number? 4 rest).map fun (n, r) => ((n : Int), r)
where
  /-- All digits that follow at once. -/
  unblanked? (cs : List Char) : Option (Nat × List Char) :=
    match Text.Decimal.split cs with
    | ([], _) => none
    | (ds, rest) => some (Text.Decimal.value ds, rest)

/-- A given mark, after any blanks. -/
def mark? (c : Char) (cs : List Char) : Option (List Char) :=
  match Text.trimLeft cs with
  | c' :: rest => if c' = c then some rest else none
  | [] => none

/-- The nanoseconds of a fraction, of which nine digits count; zero if there is none. -/
def fraction? : List Char → Option (Nat × List Char)
  | '.' :: rest =>
    match Text.Decimal.split rest with
    | ([], _) => none
    | (ds, rest) => some (Text.Decimal.value ((ds ++ List.replicate 9 '0').take 9), rest)
  | rest => some (0, rest)

/-- Two digits. -/
def twoDigits? : List Char → Option (Nat × List Char)
  | a :: b :: rest =>
    if a.isDigit && b.isDigit then some (Text.Decimal.value [a, b], rest) else none
  | _ => none

/-- Hours and minutes with colons or blanks between them, in minutes; less than a day. -/
def clock? (cs : List Char) : Option (Nat × List Char) := do
  let (hours, rest) ← twoDigits? cs
  let (minutes, rest) ← twoDigits? (rest.dropWhile fun c => c = ':' || Text.isBlank c)
  if hours ≤ 23 ∧ minutes ≤ 59 then some (60 * hours + minutes, rest) else none

/-- How many minutes the local time is ahead: a letter for none, or a signed clock reading. -/
def offset? : List Char → Option (Int × List Char)
  | 'Z' :: rest => some (0, rest)
  | 'z' :: rest => some (0, rest)
  | '+' :: rest => (clock? rest).map fun (n, r) => ((n : Int), r)
  | '-' :: rest => (clock? rest).map fun (n, r) => (-(n : Int), r)
  | '\u2212' :: rest => (clock? rest).map fun (n, r) => (-(n : Int), r)
  | a :: b :: c :: rest =>
    if [a, b, c].map Char.toUpper = ['U', 'T', 'C'] then some (0, rest) else none
  | _ => none

/-- The mark between a date and a time of day. -/
def dateEnd? : List Char → Option (List Char)
  | 'T' :: cs => some cs
  | 't' :: cs => some cs
  | ' ' :: cs => some cs
  | _ => none

/-- Reads a date, one of `T`, `t` and a space, a time of day and an offset. -/
def ofChars? (cs : List Char) : Option Timestamp := do
  let (year, cs) ← year? cs
  let (month, cs) ← number? 2 (← mark? '-' cs)
  let (day, cs) ← number? 2 (← mark? '-' cs)
  let cs ← dateEnd? cs
  let (hour, cs) ← number? 2 cs
  let (minute, cs) ← number? 2 (← mark? ':' cs)
  let (second, cs) ← number? 2 (← mark? ':' cs)
  let (nanosecond, cs) ← fraction? cs
  let (ahead, cs) ← offset? (Text.trimLeft cs)
  let there : Timestamp := ⟨year, month, day, hour, minute, second, nanosecond⟩
  let here := ofLocal there ahead
  if isValid there && yearInRange here.year && (Text.trimLeft cs).isEmpty then some here else none

/-- Reads a date, one of `T`, `t` and a space, a time of day and an offset. -/
def ofText? (text : String) : Option Timestamp := ofChars? text.toList

end Timestamp

end CourseBlueprint
