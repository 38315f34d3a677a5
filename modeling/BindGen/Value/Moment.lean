/-!
# Dates and times

The calendar values that settings files can hold: a date, a time of day, and a date with a time and
perhaps an offset from universal time. `Moment.iso` writes them in the standard form.
-/

namespace BindGen

/-- A day of the calendar. -/
structure Date where
  year : Nat
  month : Nat
  day : Nat
deriving DecidableEq, Repr

/-- A time of day. -/
structure Clock where
  hour : Nat
  minute : Nat
  second : Nat
  microsecond : Nat
deriving DecidableEq, Repr

/-- A date, a time of day, or both; the offset is in minutes east of universal time. -/
inductive Moment where
  | date (day : Date)
  | time (clock : Clock)
  | dateTime (day : Date) (clock : Clock) (offset : Option Int)
deriving DecidableEq, Repr

/-- A natural in decimal, with leading zeros up to the width. -/
def padded (width n : Nat) : String :=
  let ds := Nat.toDigits 10 n
  String.ofList (List.replicate (width - ds.length) '0' ++ ds)

namespace Date

/-- Whether a year has a day more. -/
def isLeap (year : Nat) : Bool :=
  year % 4 = 0 && (year % 100 != 0 || year % 400 = 0)

/-- The number of days of a month. -/
def monthLength (year month : Nat) : Nat :=
  if month = 2 then (if isLeap year then 29 else 28)
  else if [4, 6, 9, 11].contains month then 30 else 31

/-- Whether the calendar has the day; years run from 1 to 9999. -/
def isValid (d : Date) : Bool :=
  1 ≤ d.year && d.year ≤ 9999 && 1 ≤ d.month && d.month ≤ 12 && 1 ≤ d.day
    && d.day ≤ monthLength d.year d.month

/-- The number of days since the day before the first of January of year 1. -/
def ordinal (d : Date) : Nat :=
  let y := d.year - 1
  365 * y + y / 4 - y / 100 + y / 400
    + (List.range (d.month - 1)).foldl (fun n m => n + monthLength d.year (m + 1)) 0 + d.day

/-- The date as it is written, in parts with all their digits. -/
def iso (d : Date) : String := s!"{padded 4 d.year}-{padded 2 d.month}-{padded 2 d.day}"

end Date

namespace Clock

/-- Whether a time is one of a day. -/
def isValid (c : Clock) : Bool :=
  c.hour < 24 && c.minute < 60 && c.second < 60 && c.microsecond < 1000000

/-- The microseconds since midnight. -/
def sinceMidnight (c : Clock) : Nat :=
  ((c.hour * 60 + c.minute) * 60 + c.second) * 1000000 + c.microsecond

/-- Hours, minutes and seconds, and the microseconds if there are any. -/
def iso (c : Clock) : String :=
  let base := s!"{padded 2 c.hour}:{padded 2 c.minute}:{padded 2 c.second}"
  if c.microsecond = 0 then base else s!"{base}.{padded 6 c.microsecond}"

end Clock

namespace Moment

/-- An offset as a sign with hours and minutes. -/
def offsetText (minutes : Int) : String :=
  let n := minutes.natAbs
  let sign := if minutes < 0 then "-" else "+"
  s!"{sign}{padded 2 (n / 60)}:{padded 2 (n % 60)}"

/-- The standard form, with the given text between a date and a time. -/
def isoWith (separator : String) : Moment → String
  | date d => d.iso
  | time c => c.iso
  | dateTime d c offset => d.iso ++ separator ++ c.iso ++ (offset.map offsetText).getD ""

/-- The standard form. -/
def iso (m : Moment) : String := m.isoWith "T"

/-- The point of time that a date with a time and an offset names, in microseconds. -/
def instant (d : Date) (c : Clock) (offset : Int) : Int :=
  (d.ordinal : Int) * 86400000000 + c.sinceMidnight - offset * 60000000

end Moment
end BindGen
