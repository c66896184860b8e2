import EventRelay.Handler
import EventRelay.Simulation.World
import EventRelay.Web.Response

/-!
# Answers

What a step of a rehearsal gives out.
-/

namespace EventRelay

/-- Whether the wording is fixed, so that it is shown.  The other failures take theirs from whatever is
behind a dependency. -/
def Failure.hasStableMessage : Failure → Bool
  | .unreadableEvent _ => false
  | .unbuildableEvent _ => false
  | .unreadableValue .decimal => false
  | .constraint => false
  | .timedOut => false
  | .noSuchGroup => false
  | .groupExists => false
  | .badAnswer (.shape _) => true
  | .badAnswer (.longInteger _) => true
  | .badAnswer _ => false
  | .nestedTooDeep => false
  | .badTarget => false
  | .raised kind _ =>
    !(kind == "IntegrityError" || kind == "ResponseError" || kind.startsWith Failure.webClientErrors)
  | _ => true

namespace Simulation

/-- A table with its rows. -/
inductive Table where
  /-- Outgoing events. -/
  | outbox (rows : Outbox)
  /-- Handled deliveries. -/
  | ledger (rows : List LedgerRow)
  /-- Users. -/
  | users (rows : List User)
  /-- Tasks. -/
  | tasks (rows : List Task)
deriving DecidableEq, Repr

/-- The name of a table. -/
inductive TableName where
  /-- Outgoing events. -/
  | outbox
  /-- Handled deliveries. -/
  | ledger
  /-- Users. -/
  | users
  /-- Tasks. -/
  | tasks
deriving DecidableEq, Repr

/-- The table of a name, with its rows in the order of their identifiers. -/
def TableName.read (d : Database) : TableName → Table
  | outbox => .outbox (d.outbox.mergeSort fun a b => a.id ≤ b.id)
  | ledger => .ledger (d.ledger.mergeSort fun a b => a.id ≤ b.id)
  | users => .users (d.users.mergeSort fun a b => a.id ≤ b.id)
  | tasks => .tasks (d.tasks.mergeSort fun a b => a.id ≤ b.id)

/-- What is shown of a failure. -/
structure FailureReport where
  /-- Its kind. -/
  kind : String
  /-- Its wording, if that is fixed. -/
  message : Option String
  /-- What is wrong with an event that could not be read or built. -/
  problems : Option (List Problem)

/-- What is shown of a failure. -/
def FailureReport.of (f : Failure) : FailureReport where
  kind := f.kind
  message := if f.hasStableMessage then some f.message else none
  problems := match f with
    | .unreadableEvent problems => some problems
    | .unbuildableEvent problems => some problems
    | _ => none

/-- What is shown of a breaker. -/
structure CircuitReport where
  /-- Its name. -/
  name : String
  /-- The breaker. -/
  breaker : Breaker Instant

/-- What is shown of a cache. -/
def CircuitReport.of (c : Cache) : CircuitReport := ⟨c.circuit.name, c.breaker⟩

/-- What a step gives out. -/
inductive Answer where
  /-- Nothing. -/
  | nothing
  /-- A truth value. -/
  | truth (b : Bool)
  /-- A number. -/
  | number (n : Int)
  /-- A text. -/
  | text (s : String)
  /-- Texts. -/
  | texts (ss : List String)
  /-- An outgoing event, if there is one. -/
  | event (row : Option OutboxRow)
  /-- Outgoing events. -/
  | events (rows : List OutboxRow)
  /-- A user, if there is one. -/
  | user (u : Option User)
  /-- A task, if there is one. -/
  | task (t : Option Task)
  /-- The answers of the operations of a unit of work, and the failure that ended it, if one
  did. -/
  | transaction (answers : List (Except Failure Answer)) (cause : Option Failure)
  /-- Tables. -/
  | tables (ts : List Table)
  /-- The counters. -/
  | tally (t : Tally)
  /-- The number of rows published, and the outbox. -/
  | published (count : Nat) (outbox : Outbox)
  /-- The number of rows removed, and the outbox. -/
  | removed (count : Nat) (outbox : Outbox)
  /-- What became of a delivery. -/
  | handled (outcome : HandleOutcome)
  /-- Where a message lies. -/
  | receipt (r : Receipt)
  /-- The streams. -/
  | streams (ss : Streams)
  /-- Deliveries. -/
  | deliveries (ds : List Delivery)
  /-- The existence cache: the number of its entries, the users asked about, its breaker. -/
  | cache (size : Nat) (asked : List Int) (circuit : CircuitReport)
  /-- A run of a part of a service: how often connections were closed, and the outbox. -/
  | partRun (closed : Nat) (outbox : Outbox)
  /-- A run of a service as a whole; the breaker is that of its cache, if it has one. -/
  | serviceRun (closed : Nat) (circuit : Option CircuitReport) (outbox : Outbox)
  /-- An activity is under way. -/
  | underWay
  /-- An activity was cancelled. -/
  | cancelled
  /-- An activity has ended with a result. -/
  | ended (result : Except Failure Answer)
  /-- A response over the web. -/
  | response (r : Web.Response)

end Simulation

end EventRelay
