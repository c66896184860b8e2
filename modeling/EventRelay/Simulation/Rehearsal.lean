import EventRelay.Simulation.Scheduler
import EventRelay.Simulation.Step

/-!
# Rehearsals

A rehearsal performs steps one after another.  A step may also be left to itself under a name, to
be observed or cancelled later.  After every step whatever can go on without time passing has
done so.
-/

namespace EventRelay.Simulation

/-- What a rehearsal is told to do. -/
inductive Cue where
  /-- Perform a step and wait for its end. -/
  | perform (step : Step)
  /-- Leave a step to itself. -/
  | spawn (name : String) (step : Step)
  /-- Cancel a step that was left to itself. -/
  | cancel (name : String)
  /-- Show how a step that was left to itself stands. -/
  | observe (name : String)

/-- A rehearsal under way. -/
structure Rehearsal where
  /-- The activities. -/
  scene : Scene Answer
  /-- The activities left to themselves, by name. -/
  names : List (String × Nat) := []

/-- The report of a step. -/
structure Report where
  /-- Its result. -/
  result : Except Failure Answer
  /-- When everything had happened that followed on it at once. -/
  time : Instant
  /-- What was told meanwhile. -/
  notices : List Notice

namespace Rehearsal

/-- The world in which a rehearsal begins. -/
def opening (settings : Settings) : World where
  now := Instant.origin
  settings := settings
  database := .empty
  staged := .empty
  dbScript := DbScript.none
  broker := ⟨3, none⟩
  brokerScript := {}
  streams := []
  cache := settings.cache
  directory := {}
  publisher := settings.publisher
  legacy := true
  members := []
  memberNames := []
  service := .tasks
  signals := []
  nextSignal := 0
  tally := []
  notices := []
  reads := []
  closed := 0

/-- The plan of a job as an activity. -/
def jobPlan (job : Job) : Plan Answer := do
  Plan.ofJob job
  return .nothing

/-- How an activity stands. -/
def standing (s : Scene Answer) (activity : Nat) : Answer :=
  match s.result? activity with
  | none => .underWay
  | some (.error e) => if e.isCancellation then .cancelled else .ended (.error e)
  | some (.ok a) => .ended (.ok a)

/-- The result of an activity that was waited for.  One that waits for what never happens is
cancelled in the end. -/
def resultOf (s : Scene Answer) (activity : Nat) : Except Failure Answer :=
  (s.result? activity).getD (.error Scene.cancellation)

/-- Does what a cue says. -/
def act (r : Rehearsal) : Cue → Except Failure Answer × Rehearsal
  | .perform step =>
    let (activity, scene) := r.scene.launch step.plan
    let scene := scene.awaitEnd jobPlan activity
    (resultOf scene activity, { r with scene })
  | .spawn name step =>
    let (activity, scene) := r.scene.launch step.plan
    (.ok .nothing, { r with scene, names := (name, activity) :: r.names })
  | .cancel name =>
    match r.names.lookup name with
    | some activity => (.ok .nothing, { r with scene := r.scene.cancel activity })
    | none => (.ok .nothing, r)
  | .observe name =>
    match r.names.lookup name with
    | some activity => (.ok (standing r.scene activity), r)
    | none => (.ok .nothing, r)

/-- Does what a cue says and everything that follows on it at once, and reports. -/
def perform (r : Rehearsal) (cue : Cue) : Report × Rehearsal :=
  let (result, r) := r.act cue
  let scene := r.scene.settle jobPlan
  let report : Report := ⟨result, scene.world.now, scene.world.notices⟩
  (report, { r with scene := { scene with world := { scene.world with notices := [] } } })

end Rehearsal

end EventRelay.Simulation
