import EventRelay.Notice
import EventRelay.Time.Clock

/-!
# Periodic tasks

A task that ticks, waits one interval and ticks again until it is stopped.  A tick that fails is
told and the next one follows as usual; a stop during a tick lets the tick end first.

The operations are steps of a small machine over the time.  `start` and `stop` come from outside and
only say what is to be done; the task itself goes on when it has its turn: `turn` after a start or a
stop, `wake` when a wait is over, `finishTick` when a tick has ended.  So a task that is stopped
before its first turn does not tick at all, and one that was stopped still runs until it has had its
turn.
-/

namespace EventRelay

/-- The settings of a periodic task. -/
structure PeriodicConfig where
  /-- The name by which it is told of. -/
  name : String
  /-- The time from the end of a tick to the next one. -/
  interval : Span
  /-- Whether the first tick comes at once and not after one interval. -/
  immediate : Bool
deriving DecidableEq, Repr

/-- Where a periodic task stands. -/
inductive PeriodicPhase where
  /-- It was never started, or it has ended. -/
  | idle
  /-- It was started, and has its first turn ahead. -/
  | started
  /-- It waits for the given instant. -/
  | waiting (due : Instant)
  /-- It is to end on its next turn. -/
  | leaving
  /-- A tick is under way. -/
  | ticking
  /-- It was cancelled in a tick. -/
  | dead (cause : Failure)
deriving DecidableEq, Repr

/-- A periodic task. -/
structure Periodic where
  /-- Where it stands. -/
  phase : PeriodicPhase
  /-- Whether it has been asked to stop. -/
  stopping : Bool
deriving DecidableEq, Repr

namespace Periodic

/-- A task that was never started. -/
def fresh : Periodic := ⟨.idle, false⟩

/-- Whether the task runs. -/
def running (p : Periodic) : Bool :=
  match p.phase with
  | .started => true
  | .waiting _ => true
  | .leaving => true
  | .ticking => true
  | _ => false

/-- Starts the task; one that runs is left alone. -/
def start (p : Periodic) : Periodic := if p.running then p else ⟨.started, false⟩

/-- Asks the task to stop.  One that waits ends on its next turn, a tick under way goes on. -/
def stop (p : Periodic) : Periodic :=
  match p.phase with
  | .waiting _ => ⟨.leaving, true⟩
  | phase => ⟨phase, true⟩

/-- Waits one interval, or ends if a stop was asked for. -/
def pause (cfg : PeriodicConfig) (now : Instant) (p : Periodic) : Periodic :=
  if p.stopping && 0 < cfg.interval then { p with phase := .leaving }
  else { p with phase := .waiting (now.after (max 0 cfg.interval)) }

/-- Goes on after a start or a stop.  The first tick begins now if it is to come at once, unless a
stop was asked for meanwhile. -/
def turn (cfg : PeriodicConfig) (now : Instant) (p : Periodic) : Periodic :=
  match p.phase with
  | .started =>
    if cfg.immediate then { p with phase := if p.stopping then .idle else .ticking }
    else pause cfg now p
  | .leaving => { p with phase := .idle }
  | _ => p

/-- Ends a wait: the next tick begins, unless a stop was asked for. -/
def wake (p : Periodic) : Periodic :=
  match p.phase with
  | .waiting _ => if p.stopping then { p with phase := .idle } else { p with phase := .ticking }
  | _ => p

/-- Ends a tick. -/
def finishTick (cfg : PeriodicConfig) (now : Instant) (result : Except Failure Unit)
    (p : Periodic) : Periodic × List Notice :=
  match result with
  | .ok () => (pause cfg now p, [])
  | .error e =>
    if e.isCancellation then ({ p with phase := .dead e }, [])
    else (pause cfg now p, [.tickFailed cfg.name])

/-- How a call of `stop` returns, as soon as it does: when the task does not run any more, and with
the cause if it was cancelled. -/
def stopped? (p : Periodic) : Option (Except Failure Unit) :=
  match p.phase with
  | .idle => some (.ok ())
  | .dead e => some (.error e)
  | _ => none

end Periodic

end EventRelay
