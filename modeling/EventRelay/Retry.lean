import EventRelay.Backoff
import EventRelay.Delivery
import EventRelay.Notice
import EventRelay.Stream.Broker

/-!
# Bounded retries

A delivery is given to its handler a bounded number of times, with growing waits between, and
then moved to the dead-letter topic of its own topic.  Either way it is dealt with and can be
acknowledged; only a failure to move it, or a cancellation, comes out.

The run is a machine: `start` and `advance` say what is to be done next, and the response to
that is fed back.
-/

namespace EventRelay

/-- How often to try, and how long to wait in between. -/
structure RetryPolicy where
  /-- The number of attempts; at least one is made. -/
  attempts : Int
  /-- The waits. -/
  backoff : Backoff

/-- The number of attempts that are made. -/
def RetryPolicy.limit (p : RetryPolicy) : Nat := (max 1 p.attempts).toNat

/-- Where a run with retries stands. -/
inductive RetryState where
  /-- The handler has the delivery for the given time, counted from one. -/
  | calling (attempt : Nat)
  /-- The run waits after the given attempt. -/
  | resting (attempt : Nat)
  /-- The delivery is on its way to the dead-letter topic because of this cause. -/
  | escalating (cause : Failure)
deriving DecidableEq, Repr

/-- What a run with retries asks for next. -/
inductive RetryRequest where
  /-- To give the delivery to the handler. -/
  | call
  /-- To wait after the given attempt. -/
  | rest (attempt : Nat)
  /-- To send a message. -/
  | send (message : Message)
  /-- Nothing more: the run ends with this result. -/
  | finish (result : Except Failure Unit)

namespace Retry

/-- The dead letter of a delivery: the payload unchanged, under its own key or else its
coordinates, with headers that tell where it came from and why it was given up. -/
def deadLetter (policy : RetryPolicy) (ending : String) (d : Delivery) (cause : Failure) :
    Message where
  topic := deadLetterTopic d.topic ending
  key := match d.key with
    | none => d.eventKey
    | some k => if k = "" then d.eventKey else k
  payload := d.payload
  headers :=
    [("original_topic", d.topic), ("original_partition", toString d.partition),
      ("original_offset", d.offset), ("attempts", toString policy.attempts),
      ("error", cause.summary)]

/-- The beginning of a run. -/
def start : RetryState × RetryRequest := (.calling 1, .call)

/-- What follows on the response to the last request. -/
def advance (policy : RetryPolicy) (ending : String) (d : Delivery) (state : RetryState)
    (response : Except Failure Unit) : RetryState × RetryRequest :=
  match state, response with
  | .calling n, .ok () => (.calling n, .finish (.ok ()))
  | .calling n, .error e =>
    if e.isCancellation then (.calling n, .finish (.error e))
    else if n < policy.limit then (.resting n, .rest n)
    else (.escalating e, .send (deadLetter policy ending d e))
  | .resting n, .ok () => (.calling (n + 1), .call)
  | .resting n, .error e => (.resting n, .finish (.error e))
  | .escalating cause, response => (.escalating cause, .finish response)

/-- What is told when a delivery has been moved. -/
def movedNotice (policy : RetryPolicy) (ending : String) (d : Delivery) (cause : Failure) :
    Notice :=
  .deadLettered d.eventKey policy.attempts (deadLetterTopic d.topic ending) cause

end Retry

end EventRelay
