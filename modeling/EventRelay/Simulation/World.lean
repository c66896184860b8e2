import EventRelay.Consumer
import EventRelay.Existence.Answer
import EventRelay.Periodic
import EventRelay.Publisher
import EventRelay.Retry
import EventRelay.Settings

/-!
# The world of a rehearsal

Everything that the parts of the system share while they are rehearsed together: the clock, the
tables, the streams, the existence cache, and the scripts by which each dependency can be made to
raise, to answer by itself or to take its time.  Besides it holds what a report may ask for
afterwards: counters, notices, and the reads that consumers made.

Plans change the world; who is waiting for what is no part of it.
-/

namespace EventRelay

/-! ## Scripted dependencies -/

/-- What a script says of a call: a delay, and perhaps a cause to raise or an answer to give.  An
answer is given at once, whatever else the script says. -/
def Outcome.prepared {α : Type} (delay : Span) (cause : Option Failure) (value : Option α) :
    Outcome α :=
  match value, cause with
  | some a, _ => ⟨0, .answer a⟩
  | none, some e => ⟨delay, .raise e⟩
  | none, none => ⟨delay, .through⟩

namespace Simulation

/-- What the next calls of each command of the broker are made to do. -/
structure BrokerScript where
  /-- Appends; an answer is the identifier of an entry. -/
  append : List (Outcome String) := []
  /-- Creations of groups. -/
  createGroup : List (Outcome Unit) := []
  /-- Reads; an answer is a batch. -/
  read : List (Outcome (List Handed)) := []
  /-- Take-overs; an answer is a batch. -/
  takeOver : List (Outcome (List Handed)) := []
  /-- Acknowledgements. -/
  acknowledge : List (Outcome Unit) := []
  /-- Pings. -/
  ping : List (Outcome Unit) := []

/-- One script after another, command by command. -/
def BrokerScript.followedBy (a b : BrokerScript) : BrokerScript where
  append := a.append ++ b.append
  createGroup := a.createGroup ++ b.createGroup
  read := a.read ++ b.read
  takeOver := a.takeOver ++ b.takeOver
  acknowledge := a.acknowledge ++ b.acknowledge
  ping := a.ping ++ b.ping

/-- The users service as the existence cache meets it. -/
structure Directory where
  /-- The users that exist. -/
  known : List Int := []
  /-- What the next calls are made to do. -/
  script : List (Outcome Bool) := []
  /-- What every call does when the script is used up. -/
  otherwise : Outcome Bool := .plain
  /-- The users that were asked about, in order. -/
  asked : List Int := []

namespace Directory

/-- Takes note of a question, and takes the outcome of its call off the script. -/
def ask (d : Directory) (user : Int) : Outcome Bool × Directory :=
  let d := { d with asked := d.asked ++ [user] }
  match d.script with
  | [] => (d.otherwise, d)
  | o :: rest => (o, { d with script := rest })

/-- The verdict when a call has taken its time. -/
def verdict (d : Directory) (user : Int) (turn : Turn Bool) : Except Failure Bool :=
  match turn with
  | .through => .ok (d.known.contains user)
  | .raise e => .error e
  | .answer found => .ok found

end Directory

/-! ## Consumers and background jobs -/

/-- On whose behalf something is done. -/
inductive Host where
  /-- The rehearsal itself: its database is scripted and its cache is the shared one. -/
  | bench
  /-- A service that was started as a whole: nothing of its database is scripted, and its own
  cache stays empty. -/
  | service
deriving DecidableEq, Repr

/-- What a consumer does with a delivery. -/
inductive Callback where
  /-- It notes the delivery down and plays the script of the consumer of that number. -/
  | scripted (consumer : Nat)
  /-- It applies the event. -/
  | apply (legacy : Bool)
  /-- It applies the event, with retries, and moves it to the dead-letter topic in the end. -/
  | guarded (legacy : Bool) (policy : RetryPolicy) (ending : String) (broker : Broker)
  /-- It tells the operators. -/
  | report

/-- A consumer of a rehearsal. -/
structure Member where
  /-- Its settings. -/
  config : ConsumerConfig
  /-- What it does with a delivery. -/
  callback : Callback
  /-- What its scripted callback is still to play. -/
  script : List (Outcome Unit) := []
  /-- What its scripted callback was given, in order. -/
  seen : List Delivery := []
  /-- The activities that work on its partitions. -/
  running : List Nat := []

/-- What a periodic task does. -/
inductive Duty where
  /-- It publishes. -/
  | publish (config : PublisherConfig) (broker : Broker)
  /-- It removes old published rows. -/
  | clean (config : PublisherConfig)

/-- What goes on in the background. -/
inductive Job where
  /-- A consumer works on a partition without end. -/
  | consume (host : Host) (config : ConsumerConfig) (callback : Callback) (partition : Int)
  /-- A periodic task ticks until its signal is given. -/
  | tick (config : PeriodicConfig) (duty : Duty) (signal : Nat)

/-! ## The world -/

/-- What the parts of the system share. -/
structure World where
  /-- The time. -/
  now : Instant
  /-- The settings. -/
  settings : Settings
  /-- The tables as they are stored. -/
  database : Database
  /-- The tables with what units of work have staged. -/
  staged : Database
  /-- What database operations are made to do. -/
  dbScript : DbScript
  /-- How the rehearsal itself sends messages. -/
  broker : Broker
  /-- What commands of the broker are made to do. -/
  brokerScript : BrokerScript
  /-- The streams. -/
  streams : Streams
  /-- The existence cache. -/
  cache : Cache
  /-- The users service. -/
  directory : Directory
  /-- The publisher. -/
  publisher : PublisherConfig
  /-- Whether free text is accepted as an event. -/
  legacy : Bool
  /-- All consumers that were put in place, by number. -/
  members : List Member
  /-- The numbers of those that can be named. -/
  memberNames : List (String × Nat)
  /-- The service that is asked over the web. -/
  service : ServiceName
  /-- The signals given so far. -/
  signals : List Nat
  /-- The next signal to be given out. -/
  nextSignal : Nat
  /-- The counters. -/
  tally : Tally
  /-- The notices since they were last reported, in order. -/
  notices : List Notice
  /-- The reads and take-overs since they were last reported, in order. -/
  reads : List String
  /-- How often a connection to the broker was closed. -/
  closed : Nat

namespace World

/-- The number of the consumer of a name. -/
def member? (w : World) (name : String) : Option Nat := w.memberNames.lookup name

/-- Puts a consumer in place, made from its number.  One that had the name before goes on without
it. -/
def enlist (w : World) (name : String) (make : Nat → Member) : World :=
  let number := w.members.length
  { w with
    members := w.members ++ [make number]
    memberNames := (name, number) :: w.memberNames }

end World

end Simulation

end EventRelay

/-! ## What the settings say -/

namespace EventRelay.Settings

/-- How messages are sent. -/
def broker (s : Settings) : Broker := ⟨s.partitions, s.streamLimit⟩

/-- The publisher. -/
def publisher (s : Settings) : PublisherConfig where
  batch := s.outboxBatch
  maxRetries := s.outboxRetries
  staleAfter := Span.ofFloat s.staleAfter
  sendTimeout := Span.ofFloat s.sendTimeout
  retention := Span.ofSeconds (3600 * s.retentionHours)

/-- The existence cache, without entries. -/
def cache (s : Settings) : Cache :=
  .fresh ⟨Span.ofFloat s.cacheTtl, s.checkAttempts, ⟨s.checkBackoff, 2.0⟩, s.checkFailOpen⟩
    ⟨"users-service", s.circuitThreshold, Span.ofFloat s.circuitRecovery⟩

/-- The periodic tasks of a publisher: publishing at once and then ever again, and removing old
rows after each longer interval. -/
def periodicTasks (s : Settings) : List (PeriodicConfig × Simulation.Duty) :=
  [(⟨"outbox-publisher", Span.ofFloat s.pollInterval, true⟩, .publish s.publisher s.broker),
    (⟨"outbox-retention", Span.ofFloat s.cleanupInterval, false⟩, .clean s.publisher)]

/-- The topic that takes the user events given up. -/
def deadLetterTopic (s : Settings) : String := EventRelay.deadLetterTopic s.userTopic s.deadLetterEnding

/-- How often a delivery is tried. -/
def retryPolicy (s : Settings) : RetryPolicy :=
  ⟨s.consumerAttempts, ⟨s.consumerBackoff, s.consumerBackoffFactor⟩⟩

/-- A consumer of a topic. -/
def consumer (s : Settings) (topic group : String) : ConsumerConfig where
  topic := topic
  group := group
  name := s.consumerName
  partitions := s.partitions
  batch := s.consumerBatch
  blockMs := s.consumerBlockMs
  idleMs := s.consumerIdleMs

/-- The two consumers of the tasks service, by name: of user events, and of those given up. -/
def consumers (s : Settings) (broker : Broker) : List (String × Simulation.Member) :=
  [("main",
    { config := s.consumer s.userTopic s.consumerGroup
      callback := .guarded s.legacyText s.retryPolicy s.deadLetterEnding broker }),
   ("dlt",
    { config := s.consumer s.deadLetterTopic s.deadLetterGroup
      callback := .report })]

end EventRelay.Settings
