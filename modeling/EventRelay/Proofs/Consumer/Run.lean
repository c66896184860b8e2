import EventRelay.Consumer
import EventRelay.Proofs.Consumer.Letters
import EventRelay.Proofs.Handler.Calls

/-!
# Runs of consumers

Any number of consumers that share the work on a topic, each with the handler of user events behind
retries and dead letters.  `Crew` is what they share together with the consumers at work; `Step` is
one thing that happens: a consumer starts or stops, a command of the broker is done or fails, a call
of the handler goes on, a message is sent, somebody else appends or removes entries.  Steps come in
any order, so a run is any interleaving.

A command of the broker may be done, or fail and do nothing, or be done although its sender sees it
fail.  Cancellation is a failure like any other and may come at every wait; a consumer may also die
at any time.  Whoever has the name of a consumer that has stopped works on in its place.

Entries may be removed from every stream but those of dead letters.  Those are trimmed to a length
in service, and what is lost then is no matter of a consumer: a run here is one before that.
-/

namespace EventRelay

namespace Consumer

/-- What consumers have in common that share the work on a topic. -/
structure Subscription where
  /-- The topic. -/
  topic : String
  /-- The group. -/
  group : String
  /-- What the topic of its dead letters adds to its name. -/
  ending : String

/-- The stream of a partition. -/
def Subscription.stream (g : Subscription) (partition : Int) : String :=
  streamName g.topic partition

/-- The topic of dead letters. -/
def Subscription.letters (g : Subscription) : String := deadLetterTopic g.topic g.ending

/-- Whether a stream holds dead letters. -/
def Subscription.HoldsLetters (g : Subscription) (name : String) : Prop :=
  ∃ partition : Int, name = streamName g.letters partition

/-- A consumer at work on a partition. -/
structure Worker where
  /-- Its settings. -/
  config : ConsumerConfig
  /-- The partition. -/
  partition : Int
  /-- Whether its handler accepts free text. -/
  legacy : Bool
  /-- How often a delivery is tried. -/
  policy : RetryPolicy
  /-- How dead letters are sent. -/
  broker : Broker
  /-- Where it stands and what it asks for. -/
  move : ConsumerMove
  /-- Bookkeeping: the entry that it works on, and those of the batch that follow. -/
  batch : List Handed
  /-- Where the run with retries on that entry stands. -/
  retry : RetryState × RetryRequest
  /-- The number of the call of the handler that is under way. -/
  call : Option Nat

/-- An entry that was acknowledged. -/
structure Ack where
  /-- The partition. -/
  partition : Int
  /-- The identifier of the entry. -/
  entry : String
  /-- The fields with which the entry was handed over, unless it had been removed. -/
  fields : Option Fields
deriving DecidableEq

namespace Worker

/-- A consumer that starts. -/
def fresh (config : ConsumerConfig) (partition : Int) (legacy : Bool) (policy : RetryPolicy)
    (broker : Broker) : Worker :=
  ⟨config, partition, legacy, policy, broker, Consumer.start, [], Retry.start, none⟩

/-- The stream that it works on. -/
def stream (w : Worker) : String := w.config.stream w.partition

/-- What is left of the batch after a response. -/
def batchAfter (w : Worker) (response : ConsumerResponse) : List Handed :=
  match w.move.state, response with
  | .fetching _, .batch entries => entries
  | .handling .., .failed _ => w.batch.tail
  | .handling .., _ => w.batch
  | .acking .., _ => w.batch.tail
  | _, _ => []

/-- The consumer after the response to its last request. -/
def respond (w : Worker) (response : ConsumerResponse) : Worker :=
  { w with
    move := Consumer.advance w.config w.partition .endless w.move.state response
    batch := w.batchAfter response
    retry := Retry.start
    call := none }

/-- The consumer after the response to the last request of its run with retries. -/
def retried (w : Worker) (ending : String) (d : Delivery) (response : Except Failure Unit) :
    Worker :=
  { w with
    retry := Retry.advance w.policy ending d w.retry.1 response
    call := none }

/-- What it acknowledges. -/
def ack (w : Worker) (entry : String) : Ack :=
  ⟨w.partition, entry, w.batch.head?.bind (·.2)⟩

end Worker

/-- What the broker does about a request, with its response and what is acknowledged by it. -/
inductive Served (w : Worker) (ss : Streams) : ConsumerResponse → Streams → List Ack → Prop where
  /-- Its own entries are read. -/
  | readOwn {entries : List Handed} (hrequest : w.move.request = .readOwn)
      (h : ss.readOwn w.stream w.config.group w.config.name w.config.batch.toNat = .ok entries) :
      Served w ss (.batch entries) ss []
  /-- New entries are read. -/
  | readNew {now : Instant} {entries : List Handed} {ss' : Streams}
      (hrequest : w.move.request = .readNew)
      (h : ss.readNew w.stream w.config.group w.config.name w.config.batch.toNat now =
        .ok (entries, ss')) : Served w ss (.batch entries) ss' []
  /-- Idle entries are taken over. -/
  | takeOver {now : Instant} {entries : List (String × Fields)} {ss' : Streams}
      (hrequest : w.move.request = .takeOver)
      (h : ss.takeOver w.stream w.config.group w.config.name w.config.idleMs
        w.config.batch.toNat now = .ok (entries, ss')) :
      Served w ss (.batch (entries.map fun (id, fields) => (id, some fields))) ss' []
  /-- An entry is acknowledged. -/
  | acknowledge {entry : String} (hrequest : w.move.request = .acknowledge entry) :
      Served w ss .done (ss.acknowledge w.stream w.config.group entry) [w.ack entry]
  /-- A pause is over. -/
  | rest (hrequest : w.move.request = .rest) : Served w ss .done ss []

/-- Whether a request is one of those. -/
def IsServed : ConsumerRequest → Prop
  | .handle _ => False
  | .finish _ => False
  | _ => True

/-- The response of a callback that ended. -/
def responseOf : Except Failure Unit → ConsumerResponse
  | .ok () => .done
  | .error e => .failed e

end Consumer

/-- What consumers share, and the consumers at work. -/
structure Crew where
  /-- The calls of the handler, and the tables. -/
  handlers : Handlers
  /-- The streams of the broker. -/
  streams : Streams
  /-- The consumers at work. -/
  workers : List Consumer.Worker
  /-- Bookkeeping: all that was acknowledged, latest first. -/
  acks : List Consumer.Ack

namespace Consumer

open Work

/-- One thing that happens among consumers, where operations of the database follow the rules. -/
inductive Step (g : Subscription) (rules : Rules) : Crew → Crew → Prop where
  /-- A consumer starts on a partition. -/
  | join (s : Crew) (config : ConsumerConfig) (partition : Int) (legacy : Bool)
      (policy : RetryPolicy) (broker : Broker) (htopic : config.topic = g.topic)
      (hgroup : config.group = g.group) :
      Step g rules s
        { s with workers := s.workers ++ [.fresh config partition legacy policy broker] }
  /-- A consumer has stopped or dies. -/
  | leave (s : Crew) {before after : List Worker} {w : Worker}
      (hw : s.workers = before ++ w :: after) :
      Step g rules s { s with workers := before ++ after }
  /-- A request is served. -/
  | serve (s : Crew) {before after : List Worker} {w : Worker}
      (hw : s.workers = before ++ w :: after) {response : ConsumerResponse} {ss : Streams}
      {acks : List Ack} (h : Served w s.streams response ss acks) :
      Step g rules s
        { s with
          streams := ss
          workers := before ++ w.respond response :: after
          acks := acks ++ s.acks }
  /-- A request is served, but fails for the consumer. -/
  | lose (s : Crew) {before after : List Worker} {w : Worker}
      (hw : s.workers = before ++ w :: after) {response : ConsumerResponse} {ss : Streams}
      {acks : List Ack} (h : Served w s.streams response ss acks) (e : Failure) :
      Step g rules s
        { s with
          streams := ss
          workers := before ++ w.respond (.failed e) :: after
          acks := acks ++ s.acks }
  /-- A request fails. -/
  | fail (s : Crew) {before after : List Worker} {w : Worker}
      (hw : s.workers = before ++ w :: after) (hrequest : IsServed w.move.request)
      (e : Failure) :
      Step g rules s { s with workers := before ++ w.respond (.failed e) :: after }
  /-- A delivery is given to the handler. -/
  | call (s : Crew) {before after : List Worker} {w : Worker}
      (hw : s.workers = before ++ w :: after) {d : Delivery}
      (hrequest : w.move.request = .handle d) (hretry : w.retry.2 = .call)
      (hcall : w.call = none) (session : Session)
      (hstored : session.stored = s.handlers.stored) (hstaged : session.staged = session.stored)
      (hscript : session.script.Within rules.allowed) :
      Step g rules s
        { s with
          handlers := Handler.begin s.handlers w.legacy d session
          workers := before ++ { w with call := some s.handlers.count } :: after }
  /-- The call of the handler has ended. -/
  | called (s : Crew) {before after : List Worker} {w : Worker}
      (hw : s.workers = before ++ w :: after) {d : Delivery}
      (hrequest : w.move.request = .handle d) (hretry : w.retry.2 = .call) {e : Handler.Ended}
      (he : e ∈ s.handlers.ended) (hcall : w.call = some e.number) :
      Step g rules s
        { s with
          workers := before ++ w.retried g.ending d (e.result.map fun _ => ()) :: after }
  /-- The wait before the next attempt is over. -/
  | rested (s : Crew) {before after : List Worker} {w : Worker}
      (hw : s.workers = before ++ w :: after) {d : Delivery}
      (hrequest : w.move.request = .handle d) {n : Nat} (hretry : w.retry.2 = .rest n)
      {r : Except Failure Unit} (hr : IsWake r) :
      Step g rules s { s with workers := before ++ w.retried g.ending d r :: after }
  /-- The dead letter is sent, although the consumer may see that fail. -/
  | sent (s : Crew) {before after : List Worker} {w : Worker}
      (hw : s.workers = before ++ w :: after) {d : Delivery}
      (hrequest : w.move.request = .handle d) {m : Message} (hretry : w.retry.2 = .send m)
      {partition : Int} (hp : partitionFor m.key w.broker.partitions = .ok partition)
      (now : Instant) (r : Except Failure Unit) :
      Step g rules s
        { s with
          streams := (w.broker.accept m partition now s.streams).2
          workers := before ++ w.retried g.ending d r :: after }
  /-- The dead letter is not sent. -/
  | unsent (s : Crew) {before after : List Worker} {w : Worker}
      (hw : s.workers = before ++ w :: after) {d : Delivery}
      (hrequest : w.move.request = .handle d) {m : Message} (hretry : w.retry.2 = .send m)
      (e : Failure) :
      Step g rules s { s with workers := before ++ w.retried g.ending d (.error e) :: after }
  /-- The run with retries has ended. -/
  | returned (s : Crew) {before after : List Worker} {w : Worker}
      (hw : s.workers = before ++ w :: after) {d : Delivery}
      (hrequest : w.move.request = .handle d) {r : Except Failure Unit}
      (hretry : w.retry.2 = .finish r) :
      Step g rules s { s with workers := before ++ w.respond (responseOf r) :: after }
  /-- Calls of the handler go on, and others change the tables. -/
  | handlers (s : Crew) {handlers : Handlers} (h : Handler.Step rules s.handlers handlers) :
      Step g rules s { s with handlers }
  /-- Somebody appends an entry to a stream. -/
  | post (s : Crew) (name : String) (now : Instant) (fields : Fields) (maxlen : Option Int)
      (approximate : Bool) :
      Step g rules s { s with streams := (s.streams.append name now fields maxlen approximate).2 }
  /-- Somebody removes an entry that is no dead letter, or the length of its stream is limited. -/
  | remove (s : Crew) (name id : String) (hname : ¬ g.HoldsLetters name) :
      Step g rules s { s with streams := s.streams.erase name id }
  /-- Somebody creates a group. -/
  | createGroup (s : Crew) {name group : String} {ss : Streams}
      (h : s.streams.createGroup name group = .ok ss) : Step g rules s { s with streams := ss }
  /-- Other groups change. -/
  | regroup (s : Crew) (name : String) {groups : List Group}
      (hsame : ∀ partition, name = g.stream partition →
        groups.find? (·.name = g.group) = (s.streams.named name).group? g.group) :
      Step g rules s { s with streams := s.streams.withGroups name groups }

/-- What a run of consumers can come to. -/
inductive Reachable (g : Subscription) (rules : Rules) : Crew → Prop where
  /-- The beginning: no stream, and no consumer at work. -/
  | start (stored : Database) : Reachable g rules ⟨⟨stored, [], [], 0⟩, [], [], []⟩
  /-- One step further. -/
  | step {s s' : Crew} (h : Reachable g rules s) (hstep : Step g rules s s') :
      Reachable g rules s'

end Consumer

end EventRelay
