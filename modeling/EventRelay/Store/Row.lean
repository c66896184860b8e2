import EventRelay.Time.Instant

/-!
# Rows

The rows of the four tables: outgoing events, the ledger of handled deliveries, users and tasks.
-/

namespace EventRelay

/-- Where an outgoing event stands. -/
inductive OutboxStatus where
  /-- It waits to be claimed. -/
  | pending
  /-- A publisher has claimed it. -/
  | processing
  /-- The broker has accepted it. -/
  | published
  /-- It was given up. -/
  | failed
deriving DecidableEq, Repr

namespace OutboxStatus

/-- The word for a status. -/
def word : OutboxStatus → String
  | pending => "PENDING"
  | processing => "PROCESSING"
  | published => "PUBLISHED"
  | failed => "FAILED"

/-- The status of that word. -/
def ofWord? (s : String) : Option OutboxStatus :=
  [pending, processing, published, failed].find? (·.word == s)

/-- Whether the event is still to be sent or being sent. -/
def inFlight : OutboxStatus → Bool
  | pending => true
  | processing => true
  | _ => false

end OutboxStatus

/-- Where a task stands, for its owner. -/
inductive TaskStatus where
  /-- Not begun. -/
  | todo
  /-- Begun. -/
  | inProgress
  /-- Finished. -/
  | done
deriving DecidableEq, Repr

namespace TaskStatus

/-- The word for a status. -/
def word : TaskStatus → String
  | todo => "TODO"
  | inProgress => "IN_PROGRESS"
  | done => "DONE"

/-- The status of that word. -/
def ofWord? (s : String) : Option TaskStatus := [todo, inProgress, done].find? (·.word == s)

end TaskStatus

/-- An outgoing event. -/
structure OutboxRow where
  /-- The identifier. -/
  id : Int
  /-- The type of the event. -/
  eventType : String
  /-- The topic it goes to. -/
  topic : String
  /-- Its content. -/
  payload : String
  /-- The key that orders it among others, if it has one. -/
  key : Option String
  /-- Where it stands. -/
  status : OutboxStatus
  /-- When it was appended. -/
  createdAt : Instant
  /-- When it was claimed or published last. -/
  processedAt : Option Instant
  /-- How many attempts have failed. -/
  retryCount : Int
  /-- The cause of the last failure. -/
  errorMessage : Option String
deriving DecidableEq, Repr

/-- The key on which the broker partitions the event: its own, or else its identifier. -/
def OutboxRow.routingKey (r : OutboxRow) : String := r.key.getD (toString r.id)

/-- A record that a delivery was handled. -/
structure LedgerRow where
  /-- The identifier. -/
  id : Int
  /-- The coordinates of the delivery. -/
  eventKey : String
  /-- When it was handled. -/
  processedAt : Instant
deriving DecidableEq, Repr

/-- A user. -/
structure User where
  /-- The identifier. -/
  id : Int
  /-- The e-mail address, unlike that of any other user. -/
  email : String
  /-- The first name. -/
  firstName : Option String
  /-- The last name. -/
  lastName : Option String
  /-- When the user was created. -/
  createdAt : Instant
  /-- When the user was changed last. -/
  updatedAt : Instant
deriving DecidableEq, Repr

/-- A task. -/
structure Task where
  /-- The identifier. -/
  id : Int
  /-- The owner, a user of the other service. -/
  userId : Int
  /-- The title. -/
  title : String
  /-- The description. -/
  description : Option String
  /-- Where the task stands. -/
  status : String
  /-- When the task was created. -/
  createdAt : Instant
  /-- When the task was changed last. -/
  updatedAt : Instant
deriving DecidableEq, Repr

/-- The identifier of a new row: one more than the highest that is there. -/
def nextId (ids : List Int) : Int := ids.foldl max 0 + 1

end EventRelay
