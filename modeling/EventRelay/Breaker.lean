import EventRelay.Notice
import EventRelay.Number.Dyadic

/-!
# Circuit breakers

A breaker watches calls to a remote dependency.  It opens after a number of failures in a row;
while it is open every call is refused until the recovery time has passed, and then one trial
call is let through.  The outcome of the trial closes the breaker or opens it again.

The clock is a parameter: anything with differences that can be compared.
-/

namespace EventRelay

/-- The state of a circuit. -/
inductive Circuit where
  /-- Calls go through. -/
  | closed
  /-- Calls are refused. -/
  | open
  /-- One trial call decides. -/
  | halfOpen
deriving DecidableEq, Repr

/-- The word for a state. -/
def Circuit.word : Circuit → String
  | closed => "closed"
  | .open => "open"
  | halfOpen => "half_open"

/-- The settings of a breaker. -/
structure BreakerConfig (τ : Type) where
  /-- The name by which it is told of. -/
  name : String
  /-- How many failures in a row open it. -/
  threshold : Int
  /-- How long it stays open before a trial. -/
  recovery : τ
deriving Repr

/-- A count that is never reached. -/
def unreachable : Int := Int.pow 10 40

/-- The least count that reaches a threshold which need not be a count itself. -/
def leastCount (threshold : Float) : Int :=
  match Number.Dyadic.ofFloat? threshold with
  | some d => -((-d.fraction.num).fdiv d.fraction.den)
  | none => if threshold < 0.0 then 0 else unreachable

/-- A breaker. -/
structure Breaker (τ : Type) where
  /-- The state of the circuit. -/
  circuit : Circuit
  /-- The failures since the last success. -/
  failures : Nat
  /-- When it opened last; without meaning before that. -/
  openedAt : τ
  /-- Whether a trial call is under way. -/
  trial : Bool
  /-- How many calls were refused. -/
  rejected : Nat
deriving DecidableEq, Repr

namespace Breaker

variable {τ : Type}

/-- A new breaker: closed, nothing counted. -/
def fresh (start : τ) : Breaker τ := ⟨.closed, 0, start, false, 0⟩

/-- Refuses a call. -/
def refuse (b : Breaker τ) : Bool × Breaker τ := (false, { b with rejected := b.rejected + 1 })

/-- Asks for permission for a call. -/
def allow [Sub τ] [LE τ] [DecidableLE τ] (cfg : BreakerConfig τ) (now : τ) (b : Breaker τ) :
    Bool × Breaker τ :=
  match b.circuit with
  | .closed => (true, b)
  | .open =>
    if cfg.recovery ≤ now - b.openedAt then (true, { b with circuit := .halfOpen, trial := true })
    else b.refuse
  | .halfOpen => if b.trial then b.refuse else (true, { b with trial := true })

/-- Takes note of a call that succeeded. -/
def succeed (b : Breaker τ) : Breaker τ := { b with circuit := .closed, failures := 0, trial := false }

/-- Opens the circuit. -/
def trip (now : τ) (b : Breaker τ) : Breaker τ := { b with circuit := .open, openedAt := now }

/-- Takes note of a call that failed. -/
def fail (cfg : BreakerConfig τ) (now : τ) (b : Breaker τ) : Breaker τ × List Notice :=
  let b := { b with failures := b.failures + 1, trial := false }
  match b.circuit with
  | .halfOpen => (b.trip now, [.trialFailed cfg.name])
  | .closed =>
    if cfg.threshold ≤ b.failures then (b.trip now, [.circuitTripped cfg.name b.failures])
    else (b, [])
  | .open => (b, [])

end Breaker

end EventRelay
