import EventRelay.Publisher
import EventRelay.Proofs.Store.Interference
import Mathlib.Data.Set.Defs
import Mathlib.Logic.Relation

/-!
# Runs of publishers

Any number of publishers over one outbox and one broker.  `Relay` is what they share together with
the ticks that are under way; `Step` is one thing that happens: an event is appended, a tick claims
a batch and starts its sends, a send ends, an outcome is recorded, a cleanup runs, a tick ends or
dies, time passes.  Steps come in any order, so a run is any interleaving.

A unit of work happens as one and takes no time, but any of its operations may raise; then it has
stored nothing.  A send ends by itself or at its time limit, and until then the broker may take its
message in without the sender getting to know.  Time cannot pass the instant at which a send ends,
nor while a tick has only outcomes to record; a tick that dies frees it.

The fields under "bookkeeping" are read by no step.  They number the rows in the order of their
insertion, since an identifier may be given out again, and note which row an entry of a stream
came from and which claims a row has been under.
-/

namespace EventRelay

namespace Publisher

/-! ## Ticks -/

/-- The row that a flight carries. -/
def Flight.row : Flight → OutboxRow
  | .airborne row _ _ => row
  | .landed row _ => row

/-- A tick under way, from its claim on. -/
structure Tick where
  /-- The settings of its publisher. -/
  cfg : PublisherConfig
  /-- The number of its claim. -/
  number : Nat
  /-- When it claimed its batch. -/
  claimedAt : Instant
  /-- The numbers of the rows, by identifier, when it claimed them. -/
  serial : Int → Nat
  /-- Its sends, less those whose outcomes are recorded. -/
  flights : List Flight

/-- Whether a tick has nothing to do before an instant: a send is under way, and none ends
earlier. -/
def Tick.waitsUntil (t : Tick) (later : Instant) : Prop :=
  ∃ due, nextDue? t.flights = some due ∧ later ≤ due

end Publisher

/-- An entry as it was appended to a stream. -/
structure Posting where
  /-- The stream. -/
  stream : String
  /-- The fields of the entry. -/
  fields : Fields
  /-- The number of the row that it was appended for, if it was for one. -/
  origin : Option Nat

/-- What publishers share, and the ticks under way. -/
structure Relay where
  /-- The time, the tables, and what is beside them. -/
  desk : Session
  /-- The streams of the broker. -/
  streams : Streams
  /-- The ticks under way. -/
  ticks : List Publisher.Tick
  /-- Bookkeeping: every row as it was appended, in order. -/
  births : List OutboxRow
  /-- Bookkeeping: the number of the row that had an identifier last. -/
  serial : Int → Nat
  /-- Bookkeeping: how many batches were claimed. -/
  claims : Nat
  /-- Bookkeeping: the numbers of a row and of a claim that it came under, latest first. -/
  claimLog : List (Nat × Nat)
  /-- Bookkeeping: all entries ever appended to streams, in order. -/
  journal : List Posting

namespace Relay

open Publisher

/-- The time. -/
def now (s : Relay) : Instant := s.desk.now

/-- The outbox as it is stored. -/
def table (s : Relay) : Outbox := s.desk.stored.outbox

/-- The claim that a row came under last. -/
def claimOf? (s : Relay) (serial : Nat) : Option Nat := s.claimLog.lookup serial

/-- Runs a unit of work at the desk; it takes no time. -/
def transact {α : Type} (s : Relay) (script : DbScript) (w : Work α) :
    Except Failure α × Relay :=
  let r := w.run { s.desk with script }
  (r.1, { s with desk := { r.2 with now := s.desk.now } })

/-- Appends an event to the outbox. -/
def append (s : Relay) (eventType topic payload : String) (key : Option String)
    (createdAt : Instant) : Relay :=
  let (row, outbox) := s.table.append eventType topic payload key createdAt
  { s with
    desk := { s.desk with stored := { s.desk.stored with outbox } }
    births := s.births ++ [row]
    serial := fun id => if id = row.id then s.births.length else s.serial id }

/-- Claims a batch and starts its sends; a claim that fails leaves no tick. -/
def claim (s : Relay) (cfg : PublisherConfig) (b : Broker) (script : DbScript)
    (sends : List (Outcome String)) : Relay :=
  match s.transact script (claimBatch cfg) with
  | (.error _, s) => s
  | (.ok rows, s) =>
    { s with
      ticks := s.ticks ++ [{
        cfg, number := s.claims, claimedAt := s.now, serial := s.serial
        flights := (launchAll cfg b s.now (fun span => s.now + span) rows sends).1 }]
      claims := s.claims + 1
      claimLog := rows.map (fun row => (s.serial row.id, s.claims)) ++ s.claimLog }

/-- The entry for a row of a tick. -/
def posting (t : Tick) (row : OutboxRow) (partition : Int) : Posting :=
  let m := messageOf row
  ⟨streamName m.topic partition, .ofMessage m.key m.payload m.headers, some (t.serial row.id)⟩

/-- The broker takes the message of a row in. -/
def deliver (s : Relay) (b : Broker) (t : Tick) (row : OutboxRow) (partition : Int) : Relay :=
  { s with
    streams := (b.accept (messageOf row) partition s.now s.streams).2
    journal := s.journal ++ [posting t row partition] }

/-- What a send that ends does to the broker. -/
def deliverIf (s : Relay) (b : Broker) (t : Tick) (row : OutboxRow) : Ending → Relay
  | .accept partition => s.deliver b t row partition
  | .vouch _ => s
  | .fail _ => s

/-- Puts other ticks in the place of those under way. -/
def withTicks (s : Relay) (ticks : List Tick) : Relay := { s with ticks }

/-- Lets time pass. -/
def waitUntil (s : Relay) (later : Instant) : Relay :=
  { s with desk := { s.desk with now := later } }

/-- Another producer appends an entry. -/
def post (s : Relay) (stream : String) (fields : Fields) (maxlen : Option Int)
    (approximate : Bool) : Relay :=
  { s with
    streams := (s.streams.append stream s.now fields maxlen approximate).2
    journal := s.journal ++ [⟨stream, fields, none⟩] }

end Relay

namespace Publisher

open Relay

/-- Scripts of database operations that are done or raise. -/
def FairScript (script : DbScript) : Prop := script.Within fun _ turn => turn.IsHonest

/-- Outcomes of sends that the broker takes in or that fail; either may take any time. -/
def FairSends (sends : List (Outcome String)) : Prop := ∀ o ∈ sends, o.turn.IsHonest

/-- One thing that happens among publishers with these settings over a broker. -/
inductive Step (pubs : Set PublisherConfig) (b : Broker) : Relay → Relay → Prop where
  /-- An event is appended to the outbox. -/
  | append (s : Relay) (eventType topic payload : String) (key : Option String)
      (createdAt : Instant) : Step pubs b s (s.append eventType topic payload key createdAt)
  /-- A tick starts: it claims a batch and sends it off. -/
  | claim (s : Relay) {cfg : PublisherConfig} (hcfg : cfg ∈ pubs) {script : DbScript}
      (hscript : FairScript script) {sends : List (Outcome String)} (hsends : FairSends sends) :
      Step pubs b s (s.claim cfg b script sends)
  /-- A send is over. -/
  | land (s : Relay) {before after : List Tick} {t : Tick} (ht : s.ticks = before ++ t :: after)
      {fs gs : List Flight} {row : OutboxRow} {due : Instant} {ending : Ending}
      (hf : t.flights = fs ++ .airborne row due ending :: gs) (hdue : due.isDue s.now) :
      Step pubs b s ((s.deliverIf b t row ending).withTicks (before ++
        { t with
          flights := fs ++ .landed row (finishSend b s.now row ending s.streams).1 :: gs } ::
        after))
  /-- The broker takes a message in, but the sender does not get to know. -/
  | slip (s : Relay) {t : Tick} (ht : t ∈ s.ticks) {row : OutboxRow} {due : Instant}
      {ending : Ending} (hf : .airborne row due ending ∈ t.flights)
      (htime : 0 < t.cfg.sendTimeout) {partition : Int}
      (hp : partitionFor row.routingKey b.partitions = .ok partition) :
      Step pubs b s (s.deliver b t row partition)
  /-- All sends of a tick are over, and the next outcome is recorded. -/
  | record (s : Relay) {before after : List Tick} {t : Tick}
      (ht : s.ticks = before ++ t :: after) (hover : nextDue? t.flights = none)
      {row : OutboxRow} {result : Except Failure Receipt} {rest : List Flight}
      (hf : t.flights = .landed row result :: rest) {script : DbScript}
      (hscript : FairScript script) :
      Step pubs b s
        (let r := s.transact script (reconcile t.cfg row result)
         r.2.withTicks (before ++ (match r.1 with
          | .ok _ => [{ t with flights := rest }]
          | .error _ => []) ++ after))
  /-- A tick ends or dies. -/
  | leave (s : Relay) {before after : List Tick} {t : Tick}
      (ht : s.ticks = before ++ t :: after) : Step pubs b s (s.withTicks (before ++ after))
  /-- Published rows that were kept long enough are removed. -/
  | clean (s : Relay) {cfg : PublisherConfig} (hcfg : cfg ∈ pubs) {script : DbScript}
      (hscript : FairScript script) : Step pubs b s (s.transact script (cleanup cfg)).2
  /-- Another producer appends an entry to a stream. -/
  | other (s : Relay) (stream : String) (fields : Fields) (maxlen : Option Int)
      (approximate : Bool) : Step pubs b s (s.post stream fields maxlen approximate)
  /-- Time passes. -/
  | pass (s : Relay) {later : Instant} (hle : s.now ≤ later)
      (hwait : ∀ t ∈ s.ticks, t.waitsUntil later) : Step pubs b s (s.waitUntil later)

/-- A beginning: no row in the outbox, no stream, no tick under way. -/
def start (desk : Session) : Relay where
  desk := { desk with stored := { desk.stored with outbox := [] } }
  streams := []
  ticks := []
  births := []
  serial := fun _ => 0
  claims := 0
  claimLog := []
  journal := []

/-- What a run of publishers can come to. -/
inductive Reachable (pubs : Set PublisherConfig) (b : Broker) : Relay → Prop where
  /-- The beginning. -/
  | start (desk : Session) : Reachable pubs b (start desk)
  /-- One step further. -/
  | step {s s' : Relay} (h : Reachable pubs b s) (hstep : Step pubs b s s') :
      Reachable pubs b s'

/-- Where steps lead from a state of a run is a state of a run. -/
theorem reachable_of_steps {pubs : Set PublisherConfig} {b : Broker} {s s' : Relay}
    (h : Reachable pubs b s) (hsteps : Relation.ReflTransGen (Step pubs b) s s') :
    Reachable pubs b s' := by
  induction hsteps with
  | refl => exact h
  | tail _ hstep ih => exact .step ih hstep

end Publisher

end EventRelay
