/-!
# The civil calendar

Dates of the proleptic Gregorian calendar and their count of days from the first of January
1970.  Years are grouped in eras of four hundred, each of 146097 days, and a year is taken to
start in March, so that the leap day comes last.
-/

namespace EventRelay

/-- A calendar date. -/
structure Date where
  /-- The year. -/
  year : Nat
  /-- The month, one to twelve. -/
  month : Nat
  /-- The day of the month, counted from one. -/
  day : Nat
deriving DecidableEq, Repr

namespace Date

/-- Whether a year has a leap day. -/
def isLeap (year : Nat) : Bool := year % 4 = 0 && (year % 100 ≠ 0 || year % 400 = 0)

/-- The number of days of a month. -/
def daysIn (year month : Nat) : Nat :=
  if month = 2 then (if isLeap year then 29 else 28)
  else if month = 4 ∨ month = 6 ∨ month = 9 ∨ month = 11 then 30
  else 31

/-- Whether the date is one of the calendar, in the years 0 to 9999. -/
def isValid (d : Date) : Bool :=
  d.year ≤ 9999 && 1 ≤ d.month && d.month ≤ 12 && 1 ≤ d.day &&
    d.day ≤ daysIn d.year d.month

/-- The date that lies the given number of days after the first of January 1970. -/
def ofDays (days : Int) : Date :=
  let z := days + 719468
  let era := Int.fdiv z 146097
  let inEra := z - era * 146097
  let yearOfEra := (inEra - inEra / 1460 + inEra / 36524 - inEra / 146096) / 365
  let dayOfYear := inEra - (365 * yearOfEra + yearOfEra / 4 - yearOfEra / 100)
  let fromMarch := (5 * dayOfYear + 2) / 153
  let day := dayOfYear - (153 * fromMarch + 2) / 5 + 1
  let month := if fromMarch < 10 then fromMarch + 3 else fromMarch - 9
  let year := yearOfEra + era * 400 + (if month ≤ 2 then 1 else 0)
  ⟨year.toNat, month.toNat, day.toNat⟩

/-- How many days after the first of January 1970 the date lies. -/
def toDays (d : Date) : Int :=
  let year : Int := (d.year : Int) - (if d.month ≤ 2 then 1 else 0)
  let era := Int.fdiv year 400
  let yearOfEra := year - era * 400
  let fromMarch : Int := if 2 < d.month then (d.month : Int) - 3 else (d.month : Int) + 9
  let dayOfYear := (153 * fromMarch + 2) / 5 + d.day - 1
  let inEra := yearOfEra * 365 + yearOfEra / 4 - yearOfEra / 100 + dayOfYear
  era * 146097 + inEra - 719468

end Date

end EventRelay
