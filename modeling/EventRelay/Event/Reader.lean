import EventRelay.Event.Envelope
import EventRelay.Event.Record
import EventRelay.Event.Scalar
import EventRelay.Json.Reader

/-!
# Reading event envelopes

From the text of a document to a user or task event.  The reading is lenient about the type of a
field (`Reading`), strict about the text: it must be one JSON object with bounded nesting.

The same fields are read from other kinds of values by another `Reading`; the records are
therefore built over any source of values.
-/

namespace EventRelay

/-- How the fields of an event are read from values of type `σ`. -/
structure Reading (σ : Type) where
  /-- A string. -/
  text : σ → Except Fault String
  /-- A string, or an explicit nothing. -/
  optional : σ → Except Fault (Option String)
  /-- An integer. -/
  integer : σ → Except Fault Int
  /-- A timestamp. -/
  timestamp : σ → Except Fault Timestamp

namespace Reading

variable {σ : Type}

/-- The fields of a user event; an event without a timestamp happens now. -/
def userEvent (r : Reading σ) (now : Timestamp) (members : List (String × σ)) :
    Checked UserEvent :=
  let start : Checked (String → Timestamp → Int → Option String → UserEvent) := .ok UserEvent.mk
  let eventType : Slot σ String := ⟨"eventType", "event_type", r.text, none⟩
  let timestamp : Slot σ Timestamp := ⟨"timestamp", "timestamp", r.timestamp, some now⟩
  let userId : Slot σ Int := ⟨"userId", "user_id", r.integer, none⟩
  let email : Slot σ (Option String) := ⟨"email", "email", r.optional, some none⟩
  (((start.apply (eventType.read members)).apply (timestamp.read members)).apply
    (userId.read members)).apply (email.read members)

/-- The fields of a task event; an event without a timestamp happens now. -/
def taskEvent (r : Reading σ) (now : Timestamp) (members : List (String × σ)) :
    Checked TaskEvent :=
  let start : Checked (String → Timestamp → Int → Int → Option String → Option String →
    Option String → TaskEvent) := .ok TaskEvent.mk
  let eventType : Slot σ String := ⟨"eventType", "event_type", r.text, none⟩
  let timestamp : Slot σ Timestamp := ⟨"timestamp", "timestamp", r.timestamp, some now⟩
  let taskId : Slot σ Int := ⟨"taskId", "task_id", r.integer, none⟩
  let userId : Slot σ Int := ⟨"userId", "user_id", r.integer, none⟩
  let title : Slot σ (Option String) := ⟨"title", "title", r.optional, some none⟩
  let description : Slot σ (Option String) :=
    ⟨"description", "description", r.optional, some none⟩
  let status : Slot σ (Option String) := ⟨"status", "status", r.optional, some none⟩
  ((((((start.apply (eventType.read members)).apply (timestamp.read members)).apply
    (taskId.read members)).apply (userId.read members)).apply (title.read members)).apply
    (description.read members)).apply (status.read members)

/-- A timestamp that was read, if its year can be counted.  Years are counted from one, so a date
in the year zero can be read but lies out of range. -/
def countable (t : Timestamp) : Except Fault Timestamp :=
  if t.date.year = 0 then .error .timestampOutOfRange else .ok t

/-- The timestamp of text in any of the accepted forms. -/
def timestampOfText (s : String) : Except Fault Timestamp :=
  match Timestamp.ofText? s with
  | some t => countable t
  | none => .error .unreadableTimestamp

/-- The timestamp of a count, if it lies in range. -/
def timestampOfCount : Option Timestamp → Except Fault Timestamp
  | some t => countable t
  | none => .error .timestampOutOfRange

/-- The reading of JSON values. -/
def json : Reading Json where
  text
    | .text s => .ok s
    | _ => .error .noText
  optional
    | .null => .ok none
    | .text s => .ok (some s)
    | _ => .error .noText
  integer
    | .int n => .ok n
    | .bool b => .ok (if b then 1 else 0)
    | .float x => Scalar.integerOfFloat x
    | .text s => Scalar.integer s
    | _ => .error .noInteger
  timestamp
    | .text s => timestampOfText s
    | .int n =>
      if Scalar.fitsWord n then timestampOfCount (Timestamp.ofCount? n)
      else .error .noTimestamp
    | .float x => timestampOfCount (Timestamp.ofFloatCount? x)
    | _ => .error .noTimestamp

end Reading

/-- The members of the object that a text is. -/
def documentMembers (raw : String) : Checked (List (String × Json)) :=
  match Json.read .strict raw with
  | .error _ => .error [⟨.malformedDocument, []⟩]
  | .ok (.object members) => .ok members
  | .ok _ => .error [⟨.noObject, []⟩]

/-- Reads a user event. -/
def UserEvent.ofWire (now : Timestamp) (raw : String) : Checked UserEvent :=
  match documentMembers raw with
  | .ok members => Reading.json.userEvent now members
  | .error ps => .error ps

/-- Reads a task event. -/
def TaskEvent.ofWire (now : Timestamp) (raw : String) : Checked TaskEvent :=
  match documentMembers raw with
  | .ok members => Reading.json.taskEvent now members
  | .error ps => .error ps

end EventRelay
