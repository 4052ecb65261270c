import AccessGroups.Value.Basic

/-!
Moments in time: the Gregorian date and the time of day of a count of seconds since the start of 1970.

Lines show local time, which is taken to be universal time: the zone of a machine is no part of a moment,
and where the name or the offset of the zone is asked for, those of universal time are written.
-/

set_option autoImplicit false

namespace AccessGroups.Log

/-- A date and a time of day. Days of the week count from Sunday and days of the year from zero. -/
structure Moment where
  year : Int
  month : Nat
  day : Nat
  hour : Nat
  minute : Nat
  second : Nat
  weekday : Nat
  yearDay : Nat
  /-- Seconds since the start of 1970. -/
  stamp : Int

/-- A leap year is a fourth year, centuries apart, of which only every fourth is one. -/
def isLeapYear (year : Int) : Bool := year % 4 == 0 && (year % 100 != 0 || year % 400 == 0)

/-- Year, month and day of a count of days since the start of 1970. Years are counted from March, so
that the leap day is the last of its year, in cycles of 400 years. -/
def civilOfDays (days : Int) : Int × Nat × Nat :=
  let shifted := days + 719468
  let cycle := Int.fdiv shifted 146097
  let dayOfCycle := (shifted - cycle * 146097).toNat
  let yearOfCycle :=
    (dayOfCycle - dayOfCycle / 1460 + dayOfCycle / 36524 - dayOfCycle / 146096) / 365
  let dayOfYear := dayOfCycle - (365 * yearOfCycle + yearOfCycle / 4 - yearOfCycle / 100)
  let monthFromMarch := (5 * dayOfYear + 2) / 153
  let day := dayOfYear - (153 * monthFromMarch + 2) / 5 + 1
  let month := if monthFromMarch < 10 then monthFromMarch + 3 else monthFromMarch - 9
  let year := (yearOfCycle : Int) + cycle * 400 + if month ≤ 2 then 1 else 0
  (year, month, day)

def daysBeforeMonth (leap : Bool) (month : Nat) : Nat :=
  let plain := [0, 31, 59, 90, 120, 151, 181, 212, 243, 273, 304, 334].getD (month - 1) 0
  if leap && 2 < month then plain + 1 else plain

def Moment.ofSeconds (stamp : Int) : Moment :=
  let days := Int.fdiv stamp 86400
  let second := (stamp - days * 86400).toNat
  let (year, month, day) := civilOfDays days
  { year, month, day
    hour := second / 3600
    minute := second / 60 % 60
    second := second % 60
    weekday := ((days + 4) % 7).toNat
    yearDay := daysBeforeMonth (isLeapYear year) month + day - 1
    stamp }

/-- The whole seconds that a value counts, fractions dropped downward. A count fits into 64 bits. -/
def secondsOf (v : Value) : Except Misuse Int :=
  match v with
  | .int n => bounded n
  | .bool b => .ok (if b then 1 else 0)
  | .real x =>
    match x.reading with
    | .nan => .error .content
    | _ => (x.floor?.map bounded).getD (.error .overflow)
  | _ => .error .operand
where
  bounded (n : Int) : Except Misuse Int :=
    if -(Decimal.twoTo 63 : Int) ≤ n ∧ n < Decimal.twoTo 63 then .ok n else .error .overflow

/-- The first and the last second of the calendar, and the first one whose year cannot be written. -/
def firstSecond : Int := -67768040609740800

def lastSecond : Int := 67768036191676799

def firstUnwritten : Int := 67767976233532800

namespace Moment

def ofValue (v : Value) : Except Misuse Moment := do
  let seconds ← secondsOf v
  if seconds < firstSecond ∨ lastSecond < seconds then .error .calendar
  else if firstUnwritten ≤ seconds then .error .overflow
  else return ofSeconds seconds

def hour12 (m : Moment) : Nat := if m.hour % 12 = 0 then 12 else m.hour % 12

def daysSinceMonday (m : Moment) : Nat := (m.weekday + 6) % 7

def daysInYear (year : Int) : Nat := if isLeapYear year then 366 else 365

/-- The year and the number of a moment's week. A week starts on a Monday and belongs to the year of
its Thursday. -/
def week (m : Moment) : Int × Nat :=
  let thursday : Int := (m.yearDay : Int) + 3 - m.daysSinceMonday
  if thursday < 0 then (m.year - 1, ((thursday + daysInYear (m.year - 1)) / 7).toNat + 1)
  else if daysInYear m.year ≤ thursday then
    (m.year + 1, ((thursday - daysInYear m.year) / 7).toNat + 1)
  else (m.year, (thursday / 7).toNat + 1)

end Moment

end AccessGroups.Log
