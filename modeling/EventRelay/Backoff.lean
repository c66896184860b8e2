import EventRelay.Time.Instant

/-!
# Exponential backoff

How long to wait between attempts: a first wait that grows by a constant factor, never negative
and never longer than a fixed limit.
-/

namespace EventRelay

/-- A growing wait. -/
structure Backoff where
  /-- The wait after the first attempt, in seconds. -/
  first : Float
  /-- The factor from one wait to the next. -/
  factor : Float

namespace Backoff

/-- The longest wait, in seconds. -/
def limit : Float := 4.611686018427388e18

/-- By how much the first wait has grown after the given attempt, counted from one. -/
def growth (b : Backoff) (attempt : Nat) : Float := Float.pow b.factor (Float.ofNat (attempt - 1))

/-- The wait after the given attempt, in seconds.  It is cut down to the limit, also where the
growth is beyond all numbers; a wait that is negative or undefined is none. -/
def seconds (b : Backoff) (attempt : Nat) : Float :=
  let growth := b.growth attempt
  if growth.isInf && b.factor.isFinite then limit
  else
    let wait := b.first * growth
    let wait := if wait > limit then limit else wait
    if wait > 0.0 then wait else 0.0

/-- The wait after the given attempt. -/
def wait (b : Backoff) (attempt : Nat) : Span := Span.ofFloat (b.seconds attempt)

end Backoff

end EventRelay
