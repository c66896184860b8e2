import EventRelay.Handler
import EventRelay.Simulation.Plan

/-!
# Units of work as plans

A unit of work waits where its scripted operations take time, and others go on meanwhile.  All
units of work stage into the same tables; one that ends drops what is staged and not committed,
if it has used the connection.
-/

namespace EventRelay.Simulation

/-- The session of a unit of work; `begun` tells whether it has used the connection.  A service
of its own has its own cache, which has no entries, and nothing of its database is scripted. -/
def World.session (w : World) (host : Host) (begun : Bool) : Session where
  now := w.now.wall
  stored := w.database
  staged := w.staged
  begun := begun
  script := match host with
    | .bench => w.dbScript
    | .service => DbScript.none
  cache := match host with
    | .bench => w.cache
    | .service => w.settings.cache
  tally := w.tally
  notices := w.notices

/-- The world with what a session has changed. -/
def World.absorb (w : World) (host : Host) (s : Session) : World :=
  let w := { w with database := s.stored, staged := s.staged, tally := s.tally, notices := s.notices }
  match host with
  | .bench => { w with dbScript := s.script, cache := s.cache }
  | .service => w

/-- The world without what is staged. -/
def World.rolledBack (w : World) : World := { w with staged := w.database }

namespace Plan

variable {α : Type}

/-- A part of a unit of work: its result, and whether the unit has used the connection. -/
def part (host : Host) : Work α → Bool → Plan (Except Failure α × Bool)
  | .done r, begun => return (r, begun)
  | .look next, begun => look fun w => part host (next (w.session host begun)) begun
  | .change f next, begun => look fun w =>
    let s := f (w.session host begun)
    change (fun w => w.absorb host s) (part host next s.begun)
  | .lag span next, begun => look fun w =>
    wait (.instant (w.now.after span)) fun r => part host (next r) begun

/-- Ends a unit of work. -/
def conclude (begun : Bool) : Plan Unit := if begun then update World.rolledBack else pure ()

/-- A unit of work. -/
def unit (host : Host) (work : Work α) : Plan α := do
  let (r, begun) ← part host work false
  conclude begun
  done r

/-- Looks at the tables in a session of its own, at whose end nothing is staged any more. -/
def glance (f : Database → α) : Plan α := updateWith fun w => (f w.staged, w.rolledBack)

/-- Takes the next outcome of a dependency, and its time; then it raises, answers by itself or is
really asked. -/
def scripted (take : World → Outcome α × World) (real : Plan α) : Plan α := do
  let o ← updateWith take
  pause o.delay
  match o.turn with
  | .through => real
  | .raise e => fail e
  | .answer a => return a

end Plan

end EventRelay.Simulation
