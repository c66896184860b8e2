import EventRelay.Store.Work
import EventRelay.Stream.Broker
import EventRelay.Time.Limits

/-!
# The outbox publisher

Moves events from the outbox to the broker.  A tick first takes stale claims back and claims a
batch, in one transaction; then it sends all claimed events at once, each with a time limit; and
when every send has ended it records the outcomes one by one.  A row whose claim was taken back
in the meantime is left alone.

`claimBatch` and `reconcile` are units of work; what lies between them, the sends under way, is a
list of flights.
-/

namespace EventRelay

/-- The settings of a publisher. -/
structure PublisherConfig where
  /-- How many rows are claimed at once; a negative number sets no limit. -/
  batch : Int
  /-- After how many failed attempts a row is given up. -/
  maxRetries : Int
  /-- After which time a claim counts as stale. -/
  staleAfter : Span
  /-- How long a send may take. -/
  sendTimeout : Span
  /-- How long published rows are kept. -/
  retention : Span
deriving DecidableEq, Repr

/-- Why there can be no publisher with such settings, if a span is too long. -/
def PublisherConfig.fault? (cfg : PublisherConfig) : Option Failure :=
  cfg.staleAfter.excess?.or cfg.retention.excess?

namespace Publisher

/-- The longest cause that is recorded. -/
def causeLimit : Nat := 2000

/-- Takes stale claims back and claims a batch. -/
def claimBatch (cfg : PublisherConfig) : Work (List OutboxRow) := do
  let now ← Work.now
  let olderThan ← Work.ofExcept (now.before cfg.staleAfter)
  let released ← Work.outboxRelease olderThan cfg.maxRetries
  let rows ← Work.outboxClaim cfg.batch now
  Work.commit
  if released < 0 then throw .negativeGrowth
  if released ≠ 0 then
    Work.count .staleReleased released.toNat
    Work.tell (.staleReleased released.toNat)
  return rows

/-- The message that a row is sent as. -/
def messageOf (r : OutboxRow) : Message := ⟨r.topic, r.routingKey, r.payload, []⟩

/-! ## Sends under way -/

/-- What a send under way comes to. -/
inductive Ending where
  /-- The broker takes the message into this partition. -/
  | accept (partition : Int)
  /-- The broker says that it took the message, and gives this receipt. -/
  | vouch (receipt : Receipt)
  /-- The send fails. -/
  | fail (cause : Failure)
deriving DecidableEq, Repr

/-- A send: under way until an instant, or over. -/
inductive Flight where
  /-- The send ends at the given instant in the given way. -/
  | airborne (row : OutboxRow) (due : Instant) (ending : Ending)
  /-- The send is over. -/
  | landed (row : OutboxRow) (result : Except Failure Receipt)

/-- The result that a send records for a cause: of a cancellation nothing but the fact. -/
def recorded (cause : Failure) : Failure :=
  if cause.isCancellation then .cancelled "" else cause

/-- Starts the send of a row; `after` tells when a wait that begins now is over.  Without time for
it, or without a partition, nothing is asked of the broker, and the script of its outcomes is
untouched; an outcome that takes longer than the time limit ends as a timeout. -/
def launch (cfg : PublisherConfig) (b : Broker) (now : Instant) (after : Span → Instant)
    (row : OutboxRow) (script : List (Outcome String)) : Flight × List (Outcome String) :=
  if cfg.sendTimeout ≤ 0 then (.airborne row now (.fail .timedOut), script)
  else
    match partitionFor row.routingKey b.partitions with
    | .error e => (.airborne row now (.fail e), script)
    | .ok p =>
      let (o, rest) := Outcome.next script
      if cfg.sendTimeout ≤ o.delay then
        (.airborne row (after cfg.sendTimeout) (.fail .timedOut), rest)
      else
        let ending := match o.turn with
          | .through => Ending.accept p
          | .raise e => .fail (recorded e)
          | .answer offset => .vouch ⟨row.topic, p, offset⟩
        (.airborne row (after (max 0 o.delay)) ending, rest)

/-- Starts the sends of a batch, in order. -/
def launchAll (cfg : PublisherConfig) (b : Broker) (now : Instant) (after : Span → Instant) :
    List OutboxRow → List (Outcome String) → List Flight × List (Outcome String)
  | [], script => ([], script)
  | row :: rows, script =>
    let (f, script) := launch cfg b now after row script
    let (fs, script) := launchAll cfg b now after rows script
    (f :: fs, script)

/-- Ends a send. -/
def finishSend (b : Broker) (now : Instant) (row : OutboxRow) (ending : Ending) (ss : Streams) :
    Except Failure Receipt × Streams :=
  match ending with
  | .accept p =>
    let (receipt, ss) := b.accept (messageOf row) p now ss
    (.ok receipt, ss)
  | .vouch receipt => (.ok receipt, ss)
  | .fail e => (.error e, ss)

/-- Ends the sends that are due, in order. -/
def landDue (b : Broker) (now : Instant) : List Flight → Streams → List Flight × Streams
  | [], ss => ([], ss)
  | .landed row r :: fs, ss =>
    let (fs, ss) := landDue b now fs ss
    (.landed row r :: fs, ss)
  | .airborne row due ending :: fs, ss =>
    if due.isDue now then
      let (r, ss) := finishSend b now row ending ss
      let (fs, ss) := landDue b now fs ss
      (.landed row r :: fs, ss)
    else
      let (fs, ss) := landDue b now fs ss
      (.airborne row due ending :: fs, ss)

/-- The instant at which the next send ends, if one is under way. -/
def nextDue? (flights : List Flight) : Option Instant :=
  flights.foldl (fun best f =>
    match f, best with
    | .airborne _ due _, none => some due
    | .airborne _ due _, some d => some (min due d)
    | .landed _ _, best => best) none

/-- The results of the sends that are over. -/
def results (flights : List Flight) : List (OutboxRow × Except Failure Receipt) :=
  flights.filterMap fun
    | .landed row r => some (row, r)
    | .airborne _ _ _ => none

/-! ## Recording outcomes -/

/-- Records that the broker accepted a row; tells whether the row was still claimed. -/
def recordSuccess (row : OutboxRow) : Work Bool := do
  let now ← Work.now
  let hit ← Work.outboxPublish row.id now
  Work.commit
  if hit then Work.count (.published row.topic) 1
  else Work.tell (.publishNotRecorded row.id)
  return hit

/-- The cause of a failed send as it is recorded. -/
def causeText (cause : Failure) : String := String.ofList (cause.summary.toList.take causeLimit)

/-- Records that a send failed. -/
def recordFailure (cfg : PublisherConfig) (row : OutboxRow) (cause : Failure) : Work Unit := do
  let attempts := row.retryCount + 1
  let text := causeText cause
  let givenUp : Bool := cfg.maxRetries ≤ attempts
  let hit ← Work.outboxFail row.id attempts text (if givenUp then .failed else .pending)
  Work.commit
  if !hit then Work.tell (.failureNotRecorded row.id)
  else
    Work.count (.sendFailures row.topic (if givenUp then "failed" else "retry")) 1
    Work.tell <|
      if givenUp then .rowFailed row.id row.eventType attempts text
      else .rowRetried row.id row.eventType attempts cfg.maxRetries text

/-- Records the outcome of a send; tells whether the row is published by it. -/
def reconcile (cfg : PublisherConfig) (row : OutboxRow) (result : Except Failure Receipt) :
    Work Bool :=
  match result with
  | .ok _ => recordSuccess row
  | .error e => do
    recordFailure cfg row e
    return false

/-- Removes published rows that have been kept long enough. -/
def cleanup (cfg : PublisherConfig) : Work Nat := do
  let now ← Work.now
  let cutoff ← Work.ofExcept (now.before cfg.retention)
  let n ← Work.outboxPurge cutoff
  Work.commit
  return n

end Publisher

end EventRelay
