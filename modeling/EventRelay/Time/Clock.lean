import EventRelay.Time.Instant

/-!
# The clock that waits go by

Besides the wall clock there is one that counts the seconds since the machine was started; a run
begins when it shows one thousand.  It keeps 53 binary digits, so a wait ends not quite when its
span has passed but at the reading nearest to that, and waits one after another end elsewhere
than a single one of the same length.

What is due within the resolution of the clock is due now.
-/

namespace EventRelay

namespace Clock

/-- The binary digits of a reading. -/
def digits : Nat := 53

/-- What the clock shows when a run begins. -/
def start : Span := Span.ofSeconds 1000

/-- The finest span that the clock can tell at this reading. -/
def grain (reading : Span) : Nat :=
  Span.atom.toNat * Nat.pow 2 (Nat.log2 (reading.toNat / Span.atom.toNat) + 1 - digits)

/-- The reading nearest to a span since the start of the machine. -/
def round (reading : Span) : Span := Span.nearest reading (grain reading) * grain reading

/-- The span by which two instants must differ to be told apart when the clock is waited for. -/
def resolution : Span := 1000 * Span.microsecond / 1000000

end Clock

namespace Instant

/-- What the clock shows at an instant. -/
def reading (i : Instant) : Span := i - origin + Clock.start

/-- The instant at which a wait that begins now is over. -/
def after (now : Instant) (span : Span) : Instant :=
  origin - Clock.start + Clock.round (reading now + span)

/-- Whether what waits for an instant goes on now. -/
def isDue (due now : Instant) : Bool := due < now + Clock.resolution

/-- The clock in whole milliseconds. -/
def milliseconds (i : Instant) : Nat :=
  (Int.fdiv (Clock.round (1000 * reading i)) Span.second).toNat

end Instant

end EventRelay
