import EventRelay.Text.Quoted
import EventRelay.Time.Timestamp

/-!
# The ISO notation of dates and moments

The notation in its breadth, as people give moments by hand: a calendar date or the day of a
numbered week, with hyphens or without; any one character before the time of day; hours alone or
down to a fraction of a second, with colons or without; an offset in the same forms.  In front
of an offset the time of day may carry a character too many.

Reading is done in two steps.  The fields are split by their places first, and what cannot be
split is `malformed`; that the fields lie in their ranges is checked afterwards, and a field out
of range is a fault of its own.
-/

namespace EventRelay

/-- Why a text denotes no date or moment. -/
inductive IsoFault where
  /-- The text has none of the forms. -/
  | malformed (written : String)
  /-- There is no such offset, in microseconds. -/
  | offset (size : Int)
  /-- There is no such year. -/
  | year (number : Nat)
  /-- There is no such month. -/
  | month
  /-- The month has no such day. -/
  | day
  /-- There is no such hour. -/
  | hour
  /-- There is no such minute. -/
  | minute
  /-- There is no such second. -/
  | second
deriving DecidableEq, Repr

namespace IsoFault

/-- A span of microseconds in days, seconds and microseconds, of which the days have the sign. -/
def spanText (micros : Int) : String :=
  let days := Int.fdiv micros 86400000000
  let inDay := (micros - days * 86400000000).toNat
  let part (name : String) (n : Int) : List String := if n = 0 then [] else [name ++ toString n]
  let parts := part "days=" days ++ part "seconds=" (inDay / 1000000 : Nat) ++
    part "microseconds=" (inDay % 1000000 : Nat)
  "datetime.timedelta(" ++ (if parts = [] then "0" else ", ".intercalate parts) ++ ")"

/-- The wording of the fault. -/
def message : IsoFault → String
  | malformed written => "Invalid isoformat string: " ++ Text.quoted written
  | offset size =>
    "offset must be a timedelta strictly between -timedelta(hours=24) and " ++
      s!"timedelta(hours=24), not {spanText size}."
  | year number => s!"year {number} is out of range"
  | month => "month must be in 1..12"
  | day => "day is out of range for month"
  | hour => "hour must be in 0..23"
  | minute => "minute must be in 0..59"
  | second => "second must be in 0..59"

end IsoFault

namespace IsoNotation

/-- Reads a field of so many digits. -/
def field? (count : Nat) (cs : List Char) : Option (Nat × List Char) :=
  let ds := cs.take count
  if ds.length = count && ds.all Char.isDigit then
    some (Number.digitsValue ds, cs.drop count)
  else none

/-- Drops a hyphen, if hyphens are due. -/
def hyphen? (due : Bool) (cs : List Char) : Option (List Char) :=
  if !due then some cs
  else
    match cs with
    | '-' :: r => some r
    | _ => none

/-! ## Dates -/

/-- The day of the week of a date, counted from Monday as zero. -/
def weekday (d : Date) : Nat := ((d.toDays + 3) % 7).toNat

/-- Whether a year has a fifty-third week: it begins on a Thursday, or on a Wednesday and has a
leap day. -/
def hasLongYear (year : Nat) : Bool :=
  let first := weekday ⟨year, 1, 1⟩
  first = 3 || (first = 2 && Date.isLeap year)

/-- The Monday of the first week of a year, the week that holds the first Thursday, as a count
of days. -/
def firstMonday (year : Nat) : Int :=
  let first : Date := ⟨year, 1, 1⟩
  let before := first.toDays - weekday first
  if weekday first ≤ 3 then before else before + 7

/-- The date of a day in a numbered week; the year zero has no dates at all. -/
def ofWeek? (year week day : Nat) : Option Date :=
  let weeks := if hasLongYear year then 53 else 52
  if week = 0 ∨ weeks < week ∨ day = 0 ∨ 7 < day then none
  else if year = 0 then some ⟨1, 0, 0⟩
  else some (.ofDays (firstMonday year + 7 * (week - 1) + (day - 1)))

/-- Reads the day in a numbered week behind the letter that marks it; without a day it is the
Monday.  What follows the day is not looked at. -/
def week? (year : Nat) (hyphens : Bool) (cs : List Char) : Option Date :=
  (field? 2 cs).bind fun (week, r) =>
    if r = [] then ofWeek? year week 1
    else
      ((hyphen? hyphens r).bind (field? 1)).bind fun (day, _) => ofWeek? year week day

/-- Splits a text that begins with a date into its fields, which may lie out of range. -/
def date? (cs : List Char) : Option Date :=
  (field? 4 cs).bind fun (year, r) =>
    let (hyphens, r) := match r with
      | '-' :: r => (true, r)
      | r => (false, r)
    match r with
    | 'W' :: r => week? year hyphens r
    | r =>
      (field? 2 r).bind fun (month, r) =>
        ((hyphen? hyphens r).bind (field? 2)).map fun (day, _) => ⟨year, month, day⟩

/-- Checks that a date is one of the calendar. -/
def checkDate (d : Date) : Except IsoFault Unit :=
  if d.year = 0 ∨ 9999 < d.year then .error (.year d.year)
  else if d.month = 0 ∨ 12 < d.month then .error .month
  else if d.day = 0 ∨ Date.daysIn d.year d.month < d.day then .error .day
  else .ok ()

/-- How many characters of a moment are its date.  In front of a time of day a week without a day
is told from one with a day by the digits that follow: those of a time of day come in pairs. -/
def dateLength (cs : List Char) : Nat :=
  if cs.length = 7 then 7
  else
    match cs.drop 4 with
    | '-' :: 'W' :: r =>
      match r.drop 2 with
      | '-' :: _ :: c :: _ => if c.isDigit then 8 else 10
      | '-' :: _ => 10
      | _ => 8
    | '-' :: _ => 10
    | 'W' :: r =>
      let digits := ((r.drop 2).takeWhile Char.isDigit).length
      if digits < 2 then 7 + digits else if digits % 2 = 1 then 7 else 8
    | _ => 8

/-! ## Times of day -/

/-- Hours, minutes, seconds and microseconds. -/
structure Clock where
  /-- The hours. -/
  hour : Nat := 0
  /-- The minutes. -/
  minute : Nat := 0
  /-- The seconds. -/
  second : Nat := 0
  /-- The microseconds. -/
  micros : Nat := 0

/-- Reads the fraction of a second: its first six digits count, and what follows the digits is
allowed where the end of the text is not due. -/
def fraction? (whole : Bool) (c : Clock) (cs : List Char) : Option Clock :=
  let rest := cs.dropWhile Char.isDigit
  if (cs.take 6).all Char.isDigit && (rest = [] || !whole) then
    some { c with micros := Timestamp.fractionMicros (cs.takeWhile Char.isDigit) }
  else none

/-- What follows two digits of a time of day. -/
inductive Next where
  /-- Nothing. -/
  | done
  /-- Another two digits. -/
  | group (rest : List Char)
  /-- The fraction of a second. -/
  | fraction (rest : List Char)

/-- Looks at what follows two digits; colons stand between all groups or between none.  A single
character is no part of the time where the end of the text is not due. -/
def next? (whole colons : Bool) : List Char → Option Next
  | [] => some .done
  | [_] => if whole then none else some .done
  | c :: r =>
    if colons && c = ':' then some (.group r)
    else if c = '.' ∨ c = ',' then some (.fraction r)
    else if colons then none
    else some (.group (c :: r))

/-- Reads the seconds, and what may be a fraction of them even without a mark. -/
def seconds? (whole colons : Bool) (c : Clock) (cs : List Char) : Option Clock :=
  (field? 2 cs).bind fun (second, r) =>
    let c := { c with second }
    match next? whole colons r with
    | none => none
    | some .done => some c
    | some (.group r) => fraction? whole c r
    | some (.fraction r) => fraction? whole c r

/-- Reads the minutes and what follows them. -/
def minutes? (whole colons : Bool) (c : Clock) (cs : List Char) : Option Clock :=
  (field? 2 cs).bind fun (minute, r) =>
    let c := { c with minute }
    match next? whole colons r with
    | none => none
    | some .done => some c
    | some (.group r) => seconds? whole colons c r
    | some (.fraction r) => fraction? whole c r

/-- Splits a text that is a time of day into its fields; the flag tells whether the text has to
end with it. -/
def clock? (whole : Bool) (cs : List Char) : Option Clock :=
  (field? 2 cs).bind fun (hour, r) =>
    let c : Clock := { hour }
    let colons := r.head? == some ':'
    match next? whole colons r with
    | none => none
    | some .done => some c
    | some (.group r) => minutes? whole colons c r
    | some (.fraction r) => fraction? whole c r

/-- The microseconds of a clock. -/
def Clock.total (c : Clock) : Nat :=
  ((60 * c.hour + c.minute) * 60 + c.second) * 1000000 + c.micros

/-- The offset that a clock is; less than a second counts for nothing. -/
def Clock.offset (c : Clock) : Int := if c.total < 1000000 then 0 else c.total

/-- Splits off the offset at the end of a time of day. -/
def offset? (cs : List Char) : Option (Option Int) :=
  match cs with
  | [] => some none
  | ['Z'] => some (some 0)
  | '+' :: r => (clock? true r).map fun c => some c.offset
  | '-' :: r => (clock? true r).map fun c => some (-c.offset)
  | _ => none

/-- Whether an offset begins with the character. -/
def startsOffset (c : Char) : Bool := c = '+' || c = '-' || c = 'Z'

/-- Splits a text that is a time of day with an offset. -/
def time? (cs : List Char) : Option (Clock × Option Int) :=
  let offset := cs.dropWhile fun c => !startsOffset c
  (clock? (offset = []) (cs.takeWhile fun c => !startsOffset c)).bind fun clock =>
    (offset? offset).map (clock, ·)

/-- Checks that an offset is less than a day. -/
def checkOffset : Option Int → Except IsoFault Unit
  | some o => if o.natAbs < 86400000000 then .ok () else .error (.offset o)
  | none => .ok ()

/-- Checks that a time of day is one. -/
def checkClock (c : Clock) : Except IsoFault Unit :=
  if 24 ≤ c.hour then .error .hour
  else if 60 ≤ c.minute then .error .minute
  else if 60 ≤ c.second then .error .second
  else .ok ()

end IsoNotation

/-- Reads a date. -/
def Date.ofIsoNotation (s : String) : Except IsoFault Date :=
  let cs := s.toList
  let allowed := s.utf8ByteSize = 7 || s.utf8ByteSize = 8 || s.utf8ByteSize = 10
  match if allowed then IsoNotation.date? cs else none with
  | none => .error (.malformed s)
  | some d => (IsoNotation.checkDate d).map fun _ => d

/-- Reads a moment. -/
def Timestamp.ofIsoNotation (s : String) : Except IsoFault Timestamp :=
  let cs := s.toList
  let length := IsoNotation.dateLength cs
  let time? : Option (IsoNotation.Clock × Option Int) := match cs.drop length with
    | [] => some ({}, none)
    | _ :: r => IsoNotation.time? r
  match IsoNotation.date? (cs.take length), time? with
  | some d, some (clock, offset) => do
    IsoNotation.checkOffset offset
    IsoNotation.checkDate d
    IsoNotation.checkClock clock
    return ⟨d, clock.hour, clock.minute, clock.second, clock.micros, offset⟩
  | _, _ => .error (.malformed s)

end EventRelay
