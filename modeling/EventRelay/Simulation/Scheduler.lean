import EventRelay.Simulation.Activity

/-!
# The scheduler

Runs activities side by side over virtual time.  One activity at a time goes on until it waits or
ends; those that can go on do so in the order in which they became able to.  Time moves only when
nobody can go on, and then to the next instant that somebody waits for.

`World` changes only through `follow`, and the clock only through `fire`.
-/

namespace EventRelay.Simulation

/-- An activity that can go on: its number, how its wait ended, and what it does then. -/
structure Runnable (α : Type) where
  /-- The number of the activity. -/
  activity : Nat
  /-- How its wait ended. -/
  response : Except Failure Unit
  /-- What it does then. -/
  next : Except Failure Unit → Plan α

/-- An activity that waits. -/
structure Waiting (α : Type) where
  /-- The number of the activity. -/
  activity : Nat
  /-- What it waits for. -/
  what : Wait
  /-- What it does then. -/
  next : Except Failure Unit → Plan α

/-- The activities of a rehearsal and the world that they share. -/
structure Scene (α : Type) where
  /-- The world. -/
  world : World
  /-- Those that can go on, in order. -/
  ready : List (Runnable α) := []
  /-- Those that wait, in the order in which they began to. -/
  waiting : List (Waiting α) := []
  /-- The results of those that have ended. -/
  ended : List (Nat × Except Failure α) := []
  /-- How many activities there have been. -/
  count : Nat := 0

namespace Scene

variable {α : Type}

/-- The result of an activity that has ended. -/
def result? (s : Scene α) (activity : Nat) : Option (Except Failure α) := s.ended.lookup activity

/-- Starts an activity; it goes on when its turn comes.  One that is cancelled before that does
nothing. -/
def launch (s : Scene α) (plan : Plan α) : Nat × Scene α :=
  let next : Except Failure Unit → Plan α
    | .ok () => plan
    | .error e => .done (.error e)
  (s.count, { s with ready := s.ready ++ [⟨s.count, .ok (), next⟩], count := s.count + 1 })

/-- The cause with which a cancelled activity goes on. -/
def cancellation : Failure := .cancelled ""

/-- Cancels an activity: its wait ends with a failure. -/
def cancel (s : Scene α) (activity : Nat) : Scene α :=
  match s.waiting.find? (·.activity = activity) with
  | some x =>
    { s with
      waiting := s.waiting.filter (·.activity ≠ activity)
      ready := s.ready ++ [⟨activity, .error cancellation, x.next⟩] }
  | none =>
    { s with
      ready := s.ready.map fun r =>
        if r.activity = activity then { r with response := .error cancellation } else r }

/-- Lets an activity go on until it waits or ends.  `ofJob` gives the plan of a job. -/
def follow (ofJob : Job → Plan α) (activity : Nat) : Plan α → Scene α → Scene α
  | .done r, s => { s with ended := (activity, r) :: s.ended }
  | .look next, s => follow ofJob activity (next s.world) s
  | .change f next, s => follow ofJob activity next { s with world := f s.world }
  | .wait what next, s => { s with waiting := s.waiting ++ [⟨activity, what, next⟩] }
  | .start job next, s =>
    let (n, s) := s.launch (ofJob job)
    follow ofJob activity (next n) s
  | .cancel n next, s => follow ofJob activity next (s.cancel n)
  | .failure n next, s =>
    let cause := match s.result? n with
      | some (.error e) => some e
      | _ => none
    follow ofJob activity (next cause) s

/-- Whether what an activity waits for has happened, apart from the passing of time. -/
def hasHappened (s : Scene α) : Wait → Bool
  | .instant _ => false
  | .entries stream group _ => s.world.streams.hasFresh stream group
  | .signal number _ => s.world.signals.contains number
  | .ending activity => (s.result? activity).isSome

/-- The instant at which a wait ends in any case. -/
def due? : Wait → Option Instant
  | .instant due => some due
  | .entries _ _ due => some due
  | .signal _ due => some due
  | .ending _ => none

/-- Ends the first wait of a kind. -/
def wakeFirst (s : Scene α) (p : Wait → Bool) : Option (Scene α) :=
  (s.waiting.find? (p ·.what)).map fun x =>
    { s with
      waiting := s.waiting.filter (·.activity ≠ x.activity)
      ready := s.ready ++ [⟨x.activity, .ok (), x.next⟩] }

/-- Lets the next activity go on, if there is one that can. -/
def turn? (ofJob : Job → Plan α) (s : Scene α) : Option (Scene α) :=
  match s.ready with
  | r :: rest => some (follow ofJob r.activity (r.next r.response) { s with ready := rest })
  | [] => s.wakeFirst s.hasHappened

/-- The next instant that somebody waits for. -/
def nextDue? (s : Scene α) : Option Instant :=
  s.waiting.foldl (fun best x =>
    match due? x.what, best with
    | some due, some d => some (min due d)
    | some due, none => some due
    | none, best => best) none

/-- Moves the clock to an instant that somebody waits for, unless it is due already, and ends the
first wait for it. -/
def fire (s : Scene α) (due : Instant) : Option (Scene α) :=
  let now := if due.isDue s.world.now then s.world.now else due
  { s with world := { s.world with now } }.wakeFirst (due? · = some due)

/-- Lets activities go on until a condition holds, or until nobody can go on but by waiting
longer than allowed; `fuel` bounds the number of turns. -/
def run (ofJob : Job → Plan α) (isOver : Scene α → Bool) (mayWait : Instant → Bool) :
    Nat → Scene α → Scene α
  | 0, s => s
  | fuel + 1, s =>
    if isOver s then s
    else
      match s.turn? ofJob with
      | some s => run ofJob isOver mayWait fuel s
      | none =>
        match s.nextDue? with
        | none => s
        | some due =>
          if mayWait due then
            match s.fire due with
            | some s => run ofJob isOver mayWait fuel s
            | none => s
          else s

/-- The bound on the turns of one step. -/
def turnLimit : Nat := 10000000

/-- Lets everything happen that can without time passing. -/
def settle (ofJob : Job → Plan α) (s : Scene α) : Scene α :=
  s.run ofJob (fun _ => false) (·.isDue s.world.now) turnLimit

/-- Lets activities go on until one has ended. -/
def awaitEnd (ofJob : Job → Plan α) (activity : Nat) (s : Scene α) : Scene α :=
  s.run ofJob (fun s => (s.result? activity).isSome) (fun _ => true) turnLimit

end Scene

end EventRelay.Simulation
