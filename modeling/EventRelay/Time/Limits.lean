import EventRelay.Failure
import EventRelay.Time.Calendar
import EventRelay.Time.Instant

/-!
# The limits of the calendar

A wall clock tells dates of the years 1 to 9999 only, and a span that is taken off a date has at
most 999999999 days.
-/

namespace EventRelay

namespace Instant

/-- The instant at which a date begins. -/
def ofDate (d : Date) : Instant := Span.ofSeconds (86400 * d.toDays)

/-- Whether the calendar has a date for an instant. -/
def isDated (i : Instant) : Bool := ofDate ⟨1, 1, 1⟩ ≤ i && i < ofDate ⟨10000, 1, 1⟩

/-- The instant, if the calendar has a date for it. -/
def dated (i : Instant) : Except Failure Instant :=
  if i.isDated then .ok i else .error .noSuchDate

/-- The instant so long before another, to the microsecond. -/
def before (i : Instant) (span : Span) : Except Failure Instant := dated (i - span.rounded)

end Instant

namespace Span

/-- The whole days of a span, and one more below zero unless they are all of it. -/
def days (s : Span) : Int := Int.fdiv s.toMicroseconds (86400 * 1000000)

/-- Why a span cannot be kept, if it has too many days. -/
def excess? (s : Span) : Option Failure :=
  if s.days.natAbs ≤ Failure.mostDays then none else some (.tooManyDays s.days)

end Span

end EventRelay
