import EventRelay.Store.Row

/-!
# The outbox

Outgoing events and what publishers do with them, as functions on the table.  A row is eligible
when it waits and no earlier row of its key is unfinished, so that at most one row of a key is
under way.  After the claim every change is conditional on the row still being claimed.
-/

namespace EventRelay

/-- The table of outgoing events, in the order of insertion. -/
abbrev Outbox := List OutboxRow

namespace Outbox

/-- The cause recorded for a claim that the watchdog released for the last time. -/
def staleError : String := "Send did not complete before the row went stale"

/-- Appends an event that waits to be claimed. -/
def append (t : Outbox) (eventType topic payload : String) (key : Option String)
    (createdAt : Instant) : OutboxRow × Outbox :=
  let row : OutboxRow :=
    { id := nextId (t.map (·.id)), eventType, topic, payload, key, status := .pending
      createdAt, processedAt := none, retryCount := 0, errorMessage := none }
  (row, t ++ [row])

/-- The row with that identifier. -/
def get? (t : Outbox) (id : Int) : Option OutboxRow := t.find? (·.id = id)

/-- Whether an earlier row holds the given one back: it has the same key and is unfinished. -/
def holdsBack (earlier r : OutboxRow) : Bool :=
  r.key.isSome && earlier.key = r.key && earlier.id < r.id && earlier.status.inFlight

/-- Whether a row may be claimed. -/
def isEligible (t : Outbox) (r : OutboxRow) : Bool :=
  r.status = .pending && !t.any fun earlier => holdsBack earlier r

/-- The order in which rows are claimed: by creation, then by identifier. -/
def claimsBefore (a b : OutboxRow) : Bool :=
  a.createdAt < b.createdAt || (a.createdAt = b.createdAt && a.id ≤ b.id)

/-- The first rows of a list; a negative number sets no limit. -/
def takeUpTo (n : Int) (rows : List OutboxRow) : List OutboxRow :=
  if n < 0 then rows else rows.take n.toNat

/-- The row as it is while a publisher has it. -/
def claimed (now : Instant) (r : OutboxRow) : OutboxRow :=
  { r with status := .processing, processedAt := some now }

/-- Claims up to `batch` eligible rows. -/
def claim (t : Outbox) (batch : Int) (now : Instant) : List OutboxRow × Outbox :=
  let rows := takeUpTo batch ((t.filter (isEligible t)).mergeSort claimsBefore)
  let ids := rows.map (·.id)
  (rows.map (claimed now), t.map fun r => if ids.contains r.id then claimed now r else r)

/-- Changes the row with that identifier if it is claimed, and tells whether it was. -/
def changeClaimed (t : Outbox) (id : Int) (change : OutboxRow → OutboxRow) : Bool × Outbox :=
  let hit (r : OutboxRow) : Bool := r.id = id && r.status = .processing
  (t.any hit, t.map fun r => if hit r then change r else r)

/-- Records that the broker accepted a row. -/
def markPublished (t : Outbox) (id : Int) (now : Instant) : Bool × Outbox :=
  t.changeClaimed id fun r => { r with status := .published, processedAt := some now }

/-- Records that a send failed. -/
def recordFailure (t : Outbox) (id : Int) (retryCount : Int) (cause : String)
    (status : OutboxStatus) : Bool × Outbox :=
  t.changeClaimed id fun r => { r with status, retryCount, errorMessage := some cause }

/-- Whether a claim is older than the given instant. -/
def isStale (olderThan : Instant) (r : OutboxRow) : Bool :=
  r.status = .processing && r.processedAt.any (· < olderThan)

/-- Takes a claim back; the attempt counts as failed. -/
def released (maxRetries : Int) (r : OutboxRow) : OutboxRow :=
  let attempts := r.retryCount + 1
  if maxRetries ≤ attempts then
    { r with status := .failed, retryCount := attempts, errorMessage := some staleError }
  else { r with status := .pending, retryCount := attempts }

/-- Takes back all stale claims, and tells how many there were. -/
def releaseStale (t : Outbox) (olderThan : Instant) (maxRetries : Int) : Nat × Outbox :=
  (t.countP (isStale olderThan),
    t.map fun r => if isStale olderThan r then released maxRetries r else r)

/-- Whether a row was published before the given instant. -/
def isSpent (cutoff : Instant) (r : OutboxRow) : Bool :=
  r.status = .published && r.processedAt.any (· < cutoff)

/-- Removes the rows published before the given instant, and tells how many there were. -/
def purge (t : Outbox) (cutoff : Instant) : Nat × Outbox :=
  (t.countP (isSpent cutoff), t.filter fun r => !isSpent cutoff r)

end Outbox

end EventRelay
