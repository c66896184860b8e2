import EventRelay.Event.Kind
import EventRelay.Json.Writer
import EventRelay.Time.Timestamp

/-!
# Event envelopes

The structured events that services exchange about users and tasks, and their written form:
compact JSON over all of Unicode, members in the order of their declaration.
-/

namespace EventRelay

/-- An event about a user. -/
structure UserEvent where
  /-- The tag of the event. -/
  eventType : String
  /-- When it happened. -/
  timestamp : Timestamp
  /-- The user it is about. -/
  userId : Int
  /-- The user's e-mail address, if the producer sent it. -/
  email : Option String
deriving DecidableEq, Repr

/-- An event about a task. -/
structure TaskEvent where
  /-- The tag of the event. -/
  eventType : String
  /-- When it happened. -/
  timestamp : Timestamp
  /-- The task it is about. -/
  taskId : Int
  /-- The owner of the task. -/
  userId : Int
  /-- The title, if the producer sent it. -/
  title : Option String
  /-- The description, if there is one. -/
  description : Option String
  /-- The status, if the producer sent it. -/
  status : Option String
deriving DecidableEq, Repr

/-- The written form of an optional string. -/
def optionalText (l : Json.Layout) : Option String → String
  | none => "null"
  | some s => l.quote s

/-- The written form of the envelope. -/
def UserEvent.wire (e : UserEvent) : String :=
  let l := Json.Layout.compact
  l.object
    [("eventType", l.quote e.eventType), ("timestamp", l.quote e.timestamp.envelopeText),
      ("userId", toString e.userId), ("email", optionalText l e.email)]

/-- The written form of the envelope. -/
def TaskEvent.wire (e : TaskEvent) : String :=
  let l := Json.Layout.compact
  l.object
    [("eventType", l.quote e.eventType), ("timestamp", l.quote e.timestamp.envelopeText),
      ("taskId", toString e.taskId), ("userId", toString e.userId),
      ("title", optionalText l e.title), ("description", optionalText l e.description),
      ("status", optionalText l e.status)]

/-- The kind of change that the event tells of. -/
def UserEvent.kind? (e : UserEvent) : Option ChangeKind := ChangeKind.ofEventType? e.eventType

/-- The kind of change that the event tells of. -/
def TaskEvent.kind? (e : TaskEvent) : Option ChangeKind := ChangeKind.ofEventType? e.eventType

end EventRelay
