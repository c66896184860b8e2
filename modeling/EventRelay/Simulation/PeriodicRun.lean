import EventRelay.Outcome
import EventRelay.Periodic

/-!
# A periodic task, rehearsed

A periodic task whose ticks play a script, started, stopped and left alone for spans of virtual
time.  After each step everything that can happen without time passing has happened.
-/

namespace EventRelay.Simulation

/-- A periodic task under rehearsal. -/
structure PeriodicRun where
  /-- The settings of the task. -/
  config : PeriodicConfig
  /-- The task. -/
  task : Periodic
  /-- When the tick under way ends, and how. -/
  tickEnd : Option (Instant × Except Failure Unit)
  /-- What further ticks are to play. -/
  script : List (Outcome Unit)
  /-- When ticks began, last first. -/
  ticks : List Instant
  /-- The time. -/
  now : Instant
  /-- What was told. -/
  notices : List Notice

/-- A step of a rehearsal. -/
inductive PeriodicStep where
  /-- Start the task. -/
  | start
  /-- Stop the task, and wait for the tick under way. -/
  | stop
  /-- Let time pass. -/
  | advance (span : Span)

namespace PeriodicRun

/-- The bound on the events of one step. -/
def eventLimit : Nat := 1000000

/-- A task that was never started. -/
def fresh (config : PeriodicConfig) (script : List (Outcome Unit)) : PeriodicRun :=
  ⟨config, .fresh, none, script, [], Instant.origin, []⟩

/-- Begins a tick if one is due to begin. -/
def beginTick (r : PeriodicRun) : PeriodicRun :=
  match r.task.phase, r.tickEnd with
  | .ticking, none =>
    let (o, script) := Outcome.next r.script
    let result : Except Failure Unit := match o.turn with
      | .raise e => .error e
      | _ => .ok ()
    { r with script, ticks := r.now :: r.ticks, tickEnd := some (r.now.after (max 0 o.delay), result) }
  | _, _ => r

/-- The instant of the next event; a turn that the task has ahead is due at once. -/
def nextDue? (r : PeriodicRun) : Option Instant :=
  match r.task.phase, r.tickEnd with
  | .ticking, some (due, _) => some due
  | .waiting due, _ => some due
  | .started, _ => some r.now
  | .leaving, _ => some r.now
  | _, _ => none

/-- Lets the clock move to an instant, unless that is due already. -/
def moveTo (r : PeriodicRun) (due : Instant) : PeriodicRun :=
  if due.isDue r.now then r else { r with now := due }

/-- Lets the next event happen, at its instant. -/
def fire (r : PeriodicRun) (due : Instant) : PeriodicRun :=
  let r := r.moveTo due
  match r.task.phase, r.tickEnd with
  | .ticking, some (_, result) =>
    let (task, notices) := r.task.finishTick r.config r.now result
    { r with task, tickEnd := none, notices := r.notices ++ notices }
  | .ticking, none => r
  | .waiting _, _ => beginTick { r with task := r.task.wake }
  | _, _ => beginTick { r with task := r.task.turn r.config r.now }

/-- Lets everything happen that is due; `fuel` bounds the number of events. -/
def settle : Nat → PeriodicRun → PeriodicRun
  | 0, r => r
  | fuel + 1, r =>
    match r.nextDue? with
    | some due => if due.isDue r.now then settle fuel (r.fire due) else r
    | none => r

/-- Lets the clock go on to an instant, with all that happens on the way; `fuel` bounds the number
of events. -/
def runUntil (target : Instant) : Nat → PeriodicRun → PeriodicRun
  | 0, r => r
  | fuel + 1, r =>
    if target.isDue r.now then r
    else
      match r.nextDue? with
      | some due => if due ≤ target then runUntil target fuel (r.fire due) else r.moveTo target
      | none => r.moveTo target

/-- Lets one event happen after the other until none is ahead; `fuel` bounds their number. -/
def awaitEnd : Nat → PeriodicRun → PeriodicRun
  | 0, r => r
  | fuel + 1, r =>
    match r.nextDue? with
    | some due => awaitEnd fuel (r.fire due)
    | none => r

/-- Performs a step.  A start has been called when the task has its first turn; a stop is called,
and it returns when the task does not run any more.  Stopping a task that was cancelled fails with
its cause. -/
def step (r : PeriodicRun) : PeriodicStep → Except Failure Unit × PeriodicRun
  | .start => (.ok (), settle eventLimit { r with task := r.task.start })
  | .stop =>
    let r := awaitEnd eventLimit { r with task := r.task.stop }
    (r.task.stopped?.getD (.ok ()), r)
  | .advance span =>
    (.ok (), (r.runUntil (r.now.after (max 0 span)) eventLimit).settle eventLimit)

/-- Performs steps one after another: how the task stands after each of them, with what was told
meanwhile.  A step that fails ends the rehearsal with its cause. -/
def rehearse : PeriodicRun → List PeriodicStep → Except Failure (List PeriodicRun)
  | _, [] => .ok []
  | r, s :: steps =>
    match step { r with notices := [] } s with
    | (.ok (), r) => (rehearse r steps).map (r :: ·)
    | (.error e, _) => .error e

end PeriodicRun

end EventRelay.Simulation
