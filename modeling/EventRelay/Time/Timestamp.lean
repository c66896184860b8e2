import EventRelay.Number.Decimal
import EventRelay.Time.Calendar
import EventRelay.Time.Instant

/-!
# Timestamps

A date and a time of day to the microsecond, with or without an offset from universal time,
and its written forms.

In event envelopes an offset of zero is written `Z` and any other to the minute; in free-form
payloads it is written in full, zero as `+00:00`; rows and entities are shown in universal time.
A timestamp is read from the ISO form, from a date alone (midnight without offset), or from a
count of seconds since the Unix epoch, which beyond `2 * 10 ^ 10` is taken to count
milliseconds.
-/

namespace EventRelay

/-- A date and time of day, as a producer wrote it. -/
structure Timestamp where
  /-- The date. -/
  date : Date
  /-- The hour, below 24. -/
  hour : Nat
  /-- The minute, below 60. -/
  minute : Nat
  /-- The second, below 60. -/
  second : Nat
  /-- The microsecond, below a million. -/
  micros : Nat
  /-- Microseconds east of universal time, or nothing for a local time. -/
  offset : Option Int
deriving DecidableEq, Repr

namespace Timestamp

/-! ## From counts of seconds -/

/-- The moment in universal time a number of whole seconds and microseconds after the Unix
epoch. -/
def ofUnix (seconds : Int) (micros : Nat) : Timestamp :=
  let days := Int.fdiv seconds 86400
  let inDay := (seconds - days * 86400).toNat
  ⟨Date.ofDays days, inDay / 3600, inDay / 60 % 60, inDay % 60, micros, some 0⟩

/-- The moment of a clock reading, to the nearest microsecond. -/
def ofInstant (i : Instant) : Timestamp :=
  let micros := Span.toMicroseconds i
  let seconds := Int.fdiv micros 1000000
  ofUnix seconds (micros - seconds * 1000000).toNat

/-- The last count that is read as seconds; a larger one counts milliseconds. -/
def secondsLimit : Nat := 20000000000

/-- The first second that can be given as a count: the start of the year 0. -/
def firstSecond : Int := -62167219200

/-- The last second that can be given as a count: the end of the year 9999. -/
def lastSecond : Int := 253402300799

/-- The moment of a number of seconds and microseconds after the Unix epoch, of which the latter
may fill further seconds. -/
def ofParts? (seconds : Int) (micros : Nat) : Option Timestamp :=
  let seconds := seconds + micros / 1000000
  if firstSecond ≤ seconds ∧ seconds ≤ lastSecond then some (ofUnix seconds (micros % 1000000))
  else none

/-- The moment of a number of milliseconds and microseconds after the Unix epoch. -/
def ofMilliseconds? (count : Int) (micros : Nat) : Option Timestamp :=
  let seconds := Int.fdiv count 1000
  ofParts? seconds ((count - seconds * 1000).toNat * 1000 + micros)

/-- The moment of a count of seconds or milliseconds. -/
def ofCount? (count : Int) : Option Timestamp :=
  if count.natAbs ≤ secondsLimit then ofParts? count 0 else ofMilliseconds? count 0

/-- The whole part of a finite floating-point number, towards minus infinity. -/
def floorInt (x : Float) : Int :=
  let f := x.floor
  if f < 0.0 then -((-f).toUInt64.toNat : Int) else f.toUInt64.toNat

/-- The moment of a fractional count of seconds or milliseconds.  What lies beyond the whole
part counts forward and is rounded to microseconds. -/
def ofFloatCount? (x : Float) : Option Timestamp :=
  if x.isNaN || x.isInf || x.abs > 1.0e18 then none
  else
    let whole := floorInt x
    let fraction := x - x.floor
    let micros (unit : Float) : Nat := (fraction * unit).round.toUInt64.toNat
    if x.abs > 2.0e10 then ofMilliseconds? whole (micros 1000.0)
    else ofParts? whole (micros 1000000.0)

/-! ## Written forms -/

/-- A number in at least the given number of digits, filled with zeros in front. -/
def padded (width n : Nat) : List Char :=
  let digits := Nat.toDigits 10 n
  List.replicate (width - digits.length) '0' ++ digits

/-- The date and time of day, with a fraction of six digits when there is one. -/
def localText (t : Timestamp) : List Char :=
  padded 4 t.date.year ++ '-' :: padded 2 t.date.month ++ '-' :: padded 2 t.date.day ++
    'T' :: padded 2 t.hour ++ ':' :: padded 2 t.minute ++ ':' :: padded 2 t.second ++
    (if t.micros = 0 then [] else '.' :: padded 6 t.micros)

/-- An hour of offset, in microseconds. -/
def offsetHour : Nat := 3600000000

/-- A minute of offset, in microseconds. -/
def offsetMinute : Nat := 60000000

/-- A second of offset, in microseconds. -/
def offsetSecond : Nat := 1000000

/-- An offset as a sign, hours and minutes; what goes beyond whole minutes is left out. -/
def offsetText (offset : Int) : List Char :=
  let size := offset.natAbs
  (if offset < 0 then '-' else '+') :: padded 2 (size / offsetHour) ++
    ':' :: padded 2 (size / offsetMinute % 60)

/-- What an offset has beyond whole minutes: seconds, and a fraction of six digits. -/
def offsetRest (offset : Int) : List Char :=
  let rest := offset.natAbs % offsetMinute
  if rest = 0 then []
  else
    ':' :: padded 2 (rest / offsetSecond) ++
      (if rest % offsetSecond = 0 then [] else '.' :: padded 6 (rest % offsetSecond))

/-- The written form in event envelopes. -/
def envelopeText (t : Timestamp) : String :=
  String.ofList <| t.localText ++ match t.offset with
    | none => []
    | some o => if o = 0 then ['Z'] else offsetText o

/-- The written form in free-form payloads. -/
def isoText (t : Timestamp) : String :=
  String.ofList <| t.localText ++ match t.offset with
    | none => []
    | some o => offsetText o ++ offsetRest o

/-! ## Reading -/

/-- The value of two digits. -/
def twoDigits? (a b : Char) : Option Nat :=
  if a.isDigit && b.isDigit then some (10 * Number.digitValue a + Number.digitValue b) else none

/-- Reads a date at the front of the text. -/
def date? : List Char → Option (Date × List Char)
  | a :: b :: c :: d :: '-' :: e :: f :: '-' :: g :: h :: r =>
    match twoDigits? a b, twoDigits? c d, twoDigits? e f, twoDigits? g h with
    | some hi, some lo, some month, some day =>
      let date : Date := ⟨100 * hi + lo, month, day⟩
      if date.isValid then some (date, r) else none
    | _, _, _, _ => none
  | _ => none

/-- The microseconds of the digits of a fraction; digits beyond the sixth are cut off. -/
def fractionMicros (digits : List Char) : Nat :=
  let kept := digits.take 6
  Number.digitsValue kept * Nat.pow 10 (6 - kept.length)

/-- Reads optional seconds with an optional fraction. -/
def seconds? : List Char → Option (Nat × Nat × List Char)
  | ':' :: a :: b :: r =>
    match twoDigits? a b with
    | some s =>
      if 60 ≤ s then none
      else
        match r with
        | c :: r' =>
          if c = '.' ∨ c = ',' then
            match Number.spanDigits r' with
            | ([], _) => none
            | (ds, rest) => some (s, fractionMicros ds, rest)
          else some (s, 0, r)
        | [] => some (s, 0, [])
    | none => none
  | ':' :: _ => none
  | r => some (0, 0, r)

/-- An offset of hours and minutes with the sign read before it. -/
def signedOffset? (negative : Bool) (a b c d : Char) : Option Int :=
  match twoDigits? a b, twoDigits? c d with
  | some h, some m =>
    if h < 24 ∧ m < 60 then
      some (Number.signed negative (offsetHour * h + offsetMinute * m))
    else none
  | _, _ => none

/-- Whether the sign before an offset is a minus, written as a hyphen or as the minus sign
proper. -/
def offsetSign? (c : Char) : Option Bool :=
  if c = '+' then some false
  else if c = '-' ∨ c = '\u2212' then some true
  else none

/-- Reads the offset that ends a timestamp. -/
def offset? : List Char → Option (Option Int)
  | [] => some none
  | ['Z'] => some (some 0)
  | ['z'] => some (some 0)
  | [s, a, b, ':', c, d] =>
    (offsetSign? s).bind fun negative => (signedOffset? negative a b c d).map some
  | [s, a, b, c, d] =>
    (offsetSign? s).bind fun negative => (signedOffset? negative a b c d).map some
  | _ => none

/-- Reads a time of day and an optional offset up to the end of the text. -/
def timeOfDay? (date : Date) : List Char → Option Timestamp
  | a :: b :: ':' :: c :: d :: r =>
    match twoDigits? a b, twoDigits? c d, seconds? r with
    | some h, some m, some (s, micros, r) =>
      if h < 24 ∧ m < 60 then (offset? r).map fun o => ⟨date, h, m, s, micros, o⟩ else none
    | _, _, _ => none
  | _ => none

/-- Whether the character may stand between the date and the time of day. -/
def separates (c : Char) : Bool := c = 'T' || c = 't' || c = ' ' || c = '_'

/-- Reads the ISO form: a date, alone or with a time of day. -/
def ofIso? (cs : List Char) : Option Timestamp :=
  match date? cs with
  | some (date, []) => some ⟨date, 0, 0, 0, 0, none⟩
  | some (date, c :: r) => if separates c then timeOfDay? date r else none
  | none => none

/-- Reads a count of seconds or milliseconds: a sign, digits, and an optional point with or
without digits on either side. -/
def ofNumeral? (cs : List Char) : Option Timestamp :=
  let (negative, r) := Number.spanSign cs
  match Number.spanDigits r with
  | ([], []) => none
  | (digits, []) => ofCount? (Number.signed negative (Number.digitsValue digits))
  | (_, '.' :: fraction) =>
    if fraction.all Char.isDigit then
      (Number.Decimal.read? cs).bind fun d => ofFloatCount? d.toFloat
    else none
  | _ => none

/-- Reads a timestamp from text in any of the accepted forms. -/
def ofText? (s : String) : Option Timestamp :=
  (ofIso? s.toList).orElse fun _ => ofNumeral? s.toList

end Timestamp

end EventRelay
