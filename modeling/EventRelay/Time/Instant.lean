/-!
# Instants and spans

Time is exact: instants and spans are whole numbers of one unit, instants counted from the Unix
epoch.  The unit is small enough that both a microsecond and every binary fraction of a second
that a clock or a delay comes to is a whole number of it, so nothing is rounded but where a clock
is read.  Being integers, times leave arithmetic on deadlines to linear reasoning.
-/

namespace EventRelay

/-- A length of time. -/
abbrev Span := Int

/-- A point in time, as the span since the Unix epoch. -/
abbrev Instant := Int

namespace Span

/-- One microsecond. -/
def microsecond : Span := Int.pow 2 94

/-- One millisecond. -/
def millisecond : Span := 1000 * microsecond

/-- One second. -/
def second : Span := 1000000 * microsecond

/-- The smallest binary fraction of a second that is a whole number of units. -/
def atom : Span := Int.pow 5 6

/-- A whole number of seconds. -/
def ofSeconds (n : Int) : Span := n * second

/-- A whole number of milliseconds. -/
def ofMilliseconds (n : Int) : Span := n * millisecond

/-- The integer nearest to a quotient by a positive number; a tie goes to the even one. -/
def nearest (n : Int) (d : Nat) : Int :=
  let q := Int.fdiv n d
  let r := 2 * (n - q * d)
  if r < d then q else if d < r then q + 1 else if q % 2 = 0 then q else q + 1

/-- A span longer than every run. -/
def beyond : Span := ofSeconds (Int.pow 10 28)

/-- The span of a floating-point number of seconds.  Infinity stands for a span longer than every
run, and what is no number for none. -/
def ofFloat (seconds : Float) : Span :=
  let bits := seconds.toBits.toNat
  let biased : Nat := bits / Nat.pow 2 52 % Nat.pow 2 11
  let fraction := bits % Nat.pow 2 52
  let mantissa := if biased = 0 then fraction else fraction + Nat.pow 2 52
  let exponent : Int := (max biased 1 : Nat) - 975
  let magnitude : Int :=
    if biased = 2047 then (if fraction = 0 then beyond else 0)
    else if 0 ≤ exponent then (mantissa * Nat.pow 2 exponent.toNat : Nat) * atom
    else nearest (mantissa * atom) (Nat.pow 2 (-exponent).toNat)
  if bits / Nat.pow 2 63 = 1 then -magnitude else magnitude

/-- The span in whole microseconds, as it is shown. -/
def toMicroseconds (s : Span) : Int := nearest s (Nat.pow 2 94)

/-- The span to the microsecond. -/
def rounded (s : Span) : Span := s.toMicroseconds * microsecond

end Span

/-- The wall clock at which every run of the simulation starts: noon of the first of January
2024, in universal time. -/
def Instant.origin : Instant := Span.ofSeconds 1704110400

/-- What a wall clock shows: the instant to the microsecond. -/
def Instant.wall (i : Instant) : Instant := Span.rounded i

end EventRelay
