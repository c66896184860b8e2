import EventRelay.Counter
import EventRelay.Outcome
import EventRelay.Retry

/-!
# A run with retries, rehearsed

One delivery given to a handler that plays a script, with waits that are noted down instead of
waited for, and a broker whose appends play a script too.  The report says how often the handler
was called, which waits were asked for, what was sent, counted and told, and how the run ended.
-/

namespace EventRelay.Simulation

/-- What is rehearsed. -/
structure RetryRun where
  /-- The policy. -/
  policy : RetryPolicy
  /-- What a dead-letter topic adds to the name of its topic. -/
  ending : String
  /-- The delivery. -/
  delivery : Delivery
  /-- The broker that takes dead letters. -/
  broker : Broker

/-- What is left of the scripts, and what has happened so far. -/
structure RetryReport where
  /-- The time. -/
  now : Instant
  /-- What the handler is still to play. -/
  script : List (Outcome Unit)
  /-- What appends are still to play. -/
  faults : List (Outcome String)
  /-- How often the handler was called. -/
  calls : Nat
  /-- The waits that were asked for, in seconds, last first. -/
  waits : List Float
  /-- The streams of the broker. -/
  streams : Streams
  /-- The counters. -/
  tally : Tally
  /-- What was told. -/
  notices : List Notice
  /-- How the run ended. -/
  result : Except Failure Unit

namespace RetryRun

/-- The result of a turn that answers nothing in particular. -/
def resultOf (turn : Turn Unit) : Except Failure Unit :=
  match turn with
  | .raise e => .error e
  | _ => .ok ()

/-- Lets the handler have the delivery. -/
def call (r : RetryReport) : RetryReport × Except Failure Unit :=
  let (o, script) := Outcome.next r.script
  ({ r with script, calls := r.calls + 1, now := r.now.after o.delay }, resultOf o.turn)

/-- Sends the dead letter, and counts and tells it if that succeeds. -/
def send (run : RetryRun) (cause : Failure) (m : Message) (r : RetryReport) :
    RetryReport × Except Failure Unit :=
  match partitionFor m.key run.broker.partitions with
  | .error e => (r, .error e)
  | .ok p =>
    let (o, faults) := Outcome.next r.faults
    let r := { r with faults, now := r.now.after o.delay }
    let moved (r : RetryReport) : RetryReport :=
      { r with
        tally := r.tally.grow (.deadLettered run.delivery.topic) 1
        notices := r.notices ++ [Retry.movedNotice run.policy run.ending run.delivery cause] }
    match o.turn with
    | .raise e => (r, .error e)
    | .answer _ => (moved r, .ok ())
    | .through =>
      let (_, streams) := run.broker.accept m p r.now r.streams
      (moved { r with streams }, .ok ())

/-- Follows a run from a request on; `fuel` bounds the number of requests. -/
def follow (run : RetryRun) : Nat → RetryState → RetryRequest → RetryReport → RetryReport
  | 0, _, _, r => r
  | fuel + 1, state, request, r =>
    let resume (state : RetryState) (p : RetryReport × Except Failure Unit) : RetryReport :=
      let (next, request) := Retry.advance run.policy run.ending run.delivery state p.2
      follow run fuel next request p.1
    match request with
    | .finish result => { r with result }
    | .call => resume state (call r)
    | .rest n =>
      resume state ({ r with waits := run.policy.backoff.seconds n :: r.waits }, .ok ())
    | .send m =>
      match state with
      | .escalating cause => resume state (send run cause m r)
      | _ => r

/-- Rehearses a run.  Each attempt takes two requests, and sending and ending one each. -/
def rehearse (run : RetryRun) (script : List (Outcome Unit)) (faults : List (Outcome String)) :
    RetryReport :=
  let (state, request) := Retry.start
  follow run (2 * run.policy.limit + 2) state request
    ⟨Instant.origin, script, faults, 0, [], [], [], [], .ok ()⟩

end RetryRun

end EventRelay.Simulation
