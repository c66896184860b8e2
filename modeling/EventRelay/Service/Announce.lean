import EventRelay.Payload.Writer
import EventRelay.Store.Work

/-!
# Announcing changes

Appending an event to the outbox inside a unit of work, so that it is committed together with the
change it tells of.  A payload without a written form is dropped with a notice; the change itself
still goes through.
-/

namespace EventRelay.Service

/-- Appends an event to the outbox; nothing is appended when its payload has no written form. -/
def announce (eventType topic : Option String) (payload : Payload) (key : Option String) :
    Work (Option OutboxRow) := do
  match payload.wire with
  | .ok raw =>
    let now ← Work.now
    some <$> Work.outboxAdd eventType topic (some raw) key now
  | .error (.unwritable cause) =>
    Work.tell (.eventDropped (eventType.getD "None") (topic.getD "None") cause)
    return none
  | .error e => throw e

/-- Counts a program as timed, whether it succeeds or fails. -/
def timed {α : Type} (entity : String) (kind : ChangeKind) (w : Work α) : Work α :=
  w.whenDone fun r => do
    Work.count (.timedOperations entity kind.word) 1
    .done r

end EventRelay.Service
