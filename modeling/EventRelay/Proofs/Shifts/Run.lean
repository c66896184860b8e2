import EventRelay.Proofs.Consumer.Run
import EventRelay.Proofs.Shifts.Turns
import EventRelay.Proofs.Stream.InLine
import Mathlib.Logic.Function.Basic

/-!
# Runs of a consumer that is alone in its group

One consumer name, started and stopped any number of times, with at most one worker of it at a time
on each partition.  `Shifts` is what there is then, `Step` is one thing that happens: a worker
starts or is gone, a command of the broker is done, a cancellation strikes at a wait, a callback is
given a delivery or has returned, somebody appends or removes an entry.  Steps come in any order.

No command of the broker fails.  A cancellation may strike before a command is done or after it.
What a callback does is left open: a `Callback` says what may happen in its world.  It returns, or
it is cancelled; whether a call that was cancelled does anything afterwards is left open too.
-/

namespace EventRelay

namespace Shifts

/-- The place in a group that a consumer takes, whenever it is started. -/
structure Member where
  /-- The topic. -/
  topic : String
  /-- The group. -/
  group : String
  /-- The name within the group. -/
  name : String

/-- The stream of a partition. -/
def Member.stream (m : Member) (partition : Int) : String := streamName m.topic partition

/-- Settings with which the consumer may be started: a batch must not be empty. -/
structure Member.Runs (m : Member) (config : ConsumerConfig) : Prop where
  /-- The topic. -/
  topic : config.topic = m.topic
  /-- The group. -/
  group : config.group = m.group
  /-- The name. -/
  name : config.name = m.name
  /-- At least one entry is read at once. -/
  batch : 1 ≤ config.batch

/-- What a callback may do in a world of its own; its calls have numbers. -/
structure Callback (ε : Type) where
  /-- A call with a delivery begins and gets a number. -/
  begins : ε → Delivery → Nat → ε → Prop
  /-- Calls go on, or something else happens in the world. -/
  goesOn : ε → ε → Prop
  /-- The call of that number has returned. -/
  returned : ε → Nat → Prop

end Shifts

/-- What there is around a consumer that is alone in its group. -/
structure Shifts (ε : Type) where
  /-- The world of the callback. -/
  world : ε
  /-- The streams of the broker. -/
  streams : Streams
  /-- The worker of each partition, while there is one. -/
  worker : Int → Option Consumer.Worker
  /-- Bookkeeping: what has happened on each partition, latest first. -/
  history : Int → List Shifts.Event

namespace Shifts

open Consumer

variable {ε : Type}

/-- The worker of a partition changes. -/
def put (s : Shifts ε) (partition : Int) (w : Option Worker) : Shifts ε :=
  { s with worker := Function.update s.worker partition w }

/-- Events happen on a partition; the latest is first. -/
def note (s : Shifts ε) (partition : Int) (events : List Event) : Shifts ε :=
  { s with history := Function.update s.history partition (events ++ s.history partition) }

/-- The events of acknowledgements. -/
def eventsOf (acks : List Ack) : List Event := acks.map fun a => .acknowledged a.entry

/-- One thing that happens. -/
inductive Step (m : Member) (cb : Callback ε) : Shifts ε → Shifts ε → Prop where
  /-- A worker starts on a partition that has none. -/
  | join (s : Shifts ε) {partition : Int} (hnone : s.worker partition = none)
      {config : ConsumerConfig} (hconfig : m.Runs config) (legacy : Bool) (policy : RetryPolicy)
      (broker : Broker) :
      Step m cb s (s.put partition (some (.fresh config partition legacy policy broker)))
  /-- A worker has stopped or dies. -/
  | leave (s : Shifts ε) {partition : Int} {w : Worker} (hw : s.worker partition = some w) :
      Step m cb s ((s.put partition none).note partition [.stopped])
  /-- A command of the broker is done. -/
  | serve (s : Shifts ε) {partition : Int} {w : Worker} (hw : s.worker partition = some w)
      {response : ConsumerResponse} {streams : Streams} {acks : List Ack}
      (h : Served w s.streams response streams acks) :
      Step m cb s
        { (s.put partition (some (w.respond response))).note partition (eventsOf acks) with streams }
  /-- A command of the broker is done, but meanwhile the worker was cancelled. -/
  | lose (s : Shifts ε) {partition : Int} {w : Worker} (hw : s.worker partition = some w)
      {response : ConsumerResponse} {streams : Streams} {acks : List Ack}
      (h : Served w s.streams response streams acks) {e : Failure}
      (he : e.isCancellation = true) :
      Step m cb s
        { (s.put partition (some (w.respond (.failed e)))).note partition (eventsOf acks) with
          streams }
  /-- A worker is cancelled, and nothing else happens. -/
  | cancel (s : Shifts ε) {partition : Int} {w : Worker} (hw : s.worker partition = some w)
      {e : Failure} (he : e.isCancellation = true) :
      Step m cb s (s.put partition (some (w.respond (.failed e))))
  /-- A delivery is given to the callback. -/
  | dispatch (s : Shifts ε) {partition : Int} {w : Worker} (hw : s.worker partition = some w)
      {d : Delivery} (hrequest : w.move.request = .handle d) (hcall : w.call = none) {number : Nat}
      {world : ε} (hbegins : cb.begins s.world d number world) :
      Step m cb s
        { (s.put partition (some { w with call := some number })).note partition [.dispatched d] with
          world }
  /-- The callback has returned. -/
  | returned (s : Shifts ε) {partition : Int} {w : Worker} (hw : s.worker partition = some w)
      {d : Delivery} (hrequest : w.move.request = .handle d) {number : Nat}
      (hcall : w.call = some number) (hreturned : cb.returned s.world number) :
      Step m cb s (s.put partition (some (w.respond .done)))
  /-- Something happens in the world of the callback. -/
  | goOn (s : Shifts ε) {world : ε} (h : cb.goesOn s.world world) : Step m cb s { s with world }
  /-- Somebody appends an entry. -/
  | post (s : Shifts ε) (partition : Int) (now : Instant) (fields : Fields) (hfields : fields ≠ [])
      (maxlen : Option Int) (approximate : Bool) :
      Step m cb s
        { s.note partition [.appended
            (s.streams.append (m.stream partition) now fields maxlen approximate).1 fields] with
          streams := (s.streams.append (m.stream partition) now fields maxlen approximate).2 }
  /-- An entry is removed, by somebody or because the length of its stream is limited. -/
  | remove (s : Shifts ε) {partition : Int} {e : Entry}
      (he : e ∈ (s.streams.named (m.stream partition)).entries) :
      Step m cb s
        { s.note partition [.removed e.id.text] with
          streams := s.streams.erase (m.stream partition) e.id.text }
  /-- Somebody creates the group on a partition. -/
  | createGroup (s : Shifts ε) {partition : Int} {streams : Streams}
      (h : s.streams.createGroup (m.stream partition) m.group = .ok streams) :
      Step m cb s { s with streams }
  /-- Others work with other streams and in other groups. -/
  | others (s : Shifts ε) {streams : Streams}
      (hentries : ∀ p, (streams.named (m.stream p)).entries = (s.streams.named (m.stream p)).entries)
      (hlast : ∀ p, (streams.named (m.stream p)).lastId = (s.streams.named (m.stream p)).lastId)
      (hgroup : ∀ p, (streams.named (m.stream p)).group? m.group =
        (s.streams.named (m.stream p)).group? m.group) :
      Step m cb s { s with streams }

/-- What a run can come to that begins with a world of the callback. -/
inductive Reachable (m : Member) (cb : Callback ε) (world : ε) : Shifts ε → Prop where
  /-- The beginning: no stream, and no worker. -/
  | start : Reachable m cb world ⟨world, [], fun _ => none, fun _ => []⟩
  /-- One step further. -/
  | step {s s' : Shifts ε} (h : Reachable m cb world s) (hstep : Step m cb s s') :
      Reachable m cb world s'

end Shifts

end EventRelay
