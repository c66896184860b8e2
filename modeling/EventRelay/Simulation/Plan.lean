import EventRelay.Simulation.World

/-!
# Plans

What an activity of a rehearsal does, as a tree: it looks at the world and changes it, waits,
starts jobs and cancels them, and ends with a result.  Only a wait lets others go on, so whatever
lies between two waits happens as one.

A wait ends well, or with a failure when the activity is cancelled in it.  Plans are finite: what
goes on without end carries a bound on its rounds, `endless`, which no rehearsal reaches.
-/

namespace EventRelay.Simulation

/-- What a plan waits for. -/
inductive Wait where
  /-- An instant. -/
  | instant (due : Instant)
  /-- Entries that a group has not been handed, or an instant. -/
  | entries (stream group : String) (due : Instant)
  /-- A signal, or an instant. -/
  | signal (number : Nat) (due : Instant)
  /-- The end of an activity. -/
  | ending (activity : Nat)
deriving DecidableEq, Repr

/-- What an activity does. -/
inductive Plan (α : Type) where
  /-- It ends. -/
  | done (result : Except Failure α)
  /-- It looks at the world. -/
  | look (next : World → Plan α)
  /-- It changes the world. -/
  | change (f : World → World) (next : Plan α)
  /-- It waits. -/
  | wait (what : Wait) (next : Except Failure Unit → Plan α)
  /-- It starts a job. -/
  | start (job : Job) (next : Nat → Plan α)
  /-- It cancels an activity. -/
  | cancel (activity : Nat) (next : Plan α)
  /-- It asks how an activity ended: with which failure, if with one. -/
  | failure (activity : Nat) (next : Option Failure → Plan α)

namespace Plan

variable {α β : Type}

/-- The bound on the rounds of what goes on without end. -/
def endless : Nat := 1000000

/-- Goes on after a plan, however it ends. -/
def whenDone (p : Plan α) (k : Except Failure α → Plan β) : Plan β :=
  match p with
  | done r => k r
  | look next => look fun w => (next w).whenDone k
  | change f next => change f (next.whenDone k)
  | wait what next => wait what fun r => (next r).whenDone k
  | start job next => start job fun n => (next n).whenDone k
  | cancel n next => cancel n (next.whenDone k)
  | failure n next => failure n fun f => (next f).whenDone k

/-- Goes on after a plan that ends well. -/
def bind (p : Plan α) (k : α → Plan β) : Plan β :=
  p.whenDone fun
    | .ok a => k a
    | .error e => done (.error e)

instance : Monad Plan where
  pure a := done (.ok a)
  bind := bind

/-- Ends with a failure. -/
def fail (e : Failure) : Plan α := done (.error e)

/-- The result of a plan, and never a failure. -/
def attempt (p : Plan α) : Plan (Except Failure α) := p.whenDone fun r => done (.ok r)

/-- The world. -/
def world : Plan World := look pure

/-- Changes the world. -/
def update (f : World → World) : Plan Unit := change f (pure ())

/-- Changes the world and gives something out. -/
def updateWith (f : World → α × World) : Plan α :=
  look fun w =>
    let (a, w) := f w
    change (fun _ => w) (pure a)

/-- Tells the operators something. -/
def tell (n : Notice) : Plan Unit := update fun w => { w with notices := w.notices ++ [n] }

/-- Waits for some time; for none at all it does not wait. -/
def pause (span : Span) : Plan Unit :=
  if span ≤ 0 then pure () else look fun w => wait (.instant (w.now.after span)) done

/-- Waits for the end of an activity. -/
def join (activity : Nat) : Plan Unit := wait (.ending activity) done

end Plan

end EventRelay.Simulation
