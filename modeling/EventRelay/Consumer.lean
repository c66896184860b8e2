import EventRelay.Notice
import EventRelay.Stream.Broker

/-!
# Consumers

A member of a consumer group that works on one partition.  It first reads its own pending
entries again, batch after batch, until a batch brings nothing forward; then it takes over
entries that others have left idle and reads new ones, in turn.  An entry is acknowledged only
after its callback returned; a callback that raises leaves it pending.

The consumer is a machine: `advance` takes the response to the last request and says what is to
be done next.  Besides the endless run there are the single parts of it, which end by themselves.
-/

namespace EventRelay

/-- The settings of a consumer. -/
structure ConsumerConfig where
  /-- The topic. -/
  topic : String
  /-- The group. -/
  group : String
  /-- The name within the group. -/
  name : String
  /-- The number of partitions. -/
  partitions : Int
  /-- How many entries are read at once. -/
  batch : Int
  /-- How long a read waits for new entries, in milliseconds. -/
  blockMs : Int
  /-- How long an entry must be idle to be taken over, in milliseconds. -/
  idleMs : Int
deriving DecidableEq, Repr

/-- The stream of a partition. -/
def ConsumerConfig.stream (c : ConsumerConfig) (partition : Int) : String :=
  streamName c.topic partition

/-- Which entries a consumer works on. -/
inductive Source where
  /-- Its own entries from before. -/
  | backlog
  /-- Entries that others left idle. -/
  | idle
  /-- New entries. -/
  | fresh
deriving DecidableEq, Repr

/-- How a consumer goes on after a batch. -/
inductive Mode where
  /-- With the next batch, without end. -/
  | endless
  /-- Not at all. -/
  | once
deriving DecidableEq, Repr

/-- Where a consumer stands. -/
inductive ConsumerState where
  /-- It waits for a batch. -/
  | fetching (source : Source)
  /-- A callback has the entry; the others of the batch follow. -/
  | handling (source : Source) (entry : String) (rest : List Handed) (acked : Nat)
  /-- The entry is being acknowledged; the others of the batch follow. -/
  | acking (source : Source) (rest : List Handed) (acked : Nat)
  /-- It pauses after an error. -/
  | resting (backlog : Bool)
deriving DecidableEq, Repr

/-- What a consumer asks for next. -/
inductive ConsumerRequest where
  /-- To read its own pending entries. -/
  | readOwn
  /-- To read new entries, waiting for them. -/
  | readNew
  /-- To take over idle entries. -/
  | takeOver
  /-- To give a delivery to the callback. -/
  | handle (d : Delivery)
  /-- To acknowledge an entry. -/
  | acknowledge (entry : String)
  /-- To pause. -/
  | rest
  /-- Nothing more: so many entries were acknowledged. -/
  | finish (result : Except Failure Nat)

/-- The response to a request. -/
inductive ConsumerResponse where
  /-- A batch. -/
  | batch (entries : List Handed)
  /-- It is done. -/
  | done
  /-- It failed. -/
  | failed (cause : Failure)

/-- What a consumer does next. -/
structure ConsumerMove where
  /-- Where it stands then. -/
  state : ConsumerState
  /-- What it asks for. -/
  request : ConsumerRequest
  /-- What it tells the operators. -/
  notices : List Notice

namespace Consumer

/-- The pause after an error. -/
def pause : Span := Span.ofSeconds 5

/-- Asks for a batch. -/
def fetch (source : Source) : ConsumerMove :=
  let request := match source with
    | .backlog => ConsumerRequest.readOwn
    | .idle => .takeOver
    | .fresh => .readNew
  ⟨.fetching source, request, []⟩

/-- What follows on a batch.  The backlog is read again as long as it moves forward. -/
def afterBatch (mode : Mode) (source : Source) (acked : Nat) : ConsumerMove :=
  match mode, source with
  | .once, _ => ⟨.fetching source, .finish (.ok acked), []⟩
  | .endless, .backlog => fetch (if 0 < acked then .backlog else .idle)
  | .endless, .idle => fetch .fresh
  | .endless, .fresh => fetch .idle

/-- Gives out the next entry of a batch.  A removed one has nothing to deliver and is
acknowledged at once. -/
def next (cfg : ConsumerConfig) (partition : Int) (mode : Mode) (source : Source)
    (entries : List Handed) (acked : Nat) : ConsumerMove :=
  match entries with
  | [] => afterBatch mode source acked
  | (entry, fields) :: rest =>
    let notices := if source = .idle then [Notice.reclaimed entry (cfg.stream partition)] else []
    match fields with
    | some (f :: fs) =>
      ⟨.handling source entry rest acked,
        .handle (.ofFields cfg.topic partition entry (f :: fs)), notices⟩
    | _ => ⟨.acking source rest acked, .acknowledge entry, notices⟩

/-- What follows on an error that is not the callback's. -/
def afterError (cfg : ConsumerConfig) (partition : Int) (mode : Mode) (source : Source)
    (e : Failure) : ConsumerMove :=
  match mode with
  | .once => ⟨.fetching source, .finish (.error e), []⟩
  | .endless =>
    if e.isCancellation then ⟨.fetching source, .finish (.error e), []⟩
    else ⟨.resting (source = .backlog), .rest, [.consumerPaused (cfg.stream partition)]⟩

/-- What follows on the response to the last request. -/
def advance (cfg : ConsumerConfig) (partition : Int) (mode : Mode) (state : ConsumerState)
    (response : ConsumerResponse) : ConsumerMove :=
  match state, response with
  | .fetching source, .batch entries => next cfg partition mode source entries 0
  | .fetching source, .done => next cfg partition mode source [] 0
  | .fetching source, .failed e => afterError cfg partition mode source e
  | .handling source entry rest acked, .failed e =>
    if e.isCancellation then ⟨.fetching source, .finish (.error e), []⟩
    else
      let m := next cfg partition mode source rest acked
      { m with notices := .leftPending entry partition :: m.notices }
  | .handling source entry rest acked, _ =>
    ⟨.acking source rest acked, .acknowledge entry, []⟩
  | .acking source _ _, .failed e => afterError cfg partition mode source e
  | .acking source rest acked, _ => next cfg partition mode source rest (acked + 1)
  | .resting backlog, .failed e =>
    ⟨.resting backlog, .finish (.error e), []⟩
  | .resting backlog, _ => fetch (if backlog then .backlog else .idle)

/-- The beginning of an endless run. -/
def start : ConsumerMove := fetch .backlog

end Consumer

end EventRelay
