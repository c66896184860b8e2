/-!
# Deliveries

A message as it is handed to a handler, and the flat list of fields as which the broker stores
it.  Key and payload are fields of their own; the headers share the list with them under names
that are marked by a common beginning, so no header can be taken for the key or the payload.
-/

namespace EventRelay

/-- The fields of a stored message, in order. -/
abbrev Fields := List (String × String)

/-- One message as it is handed over. -/
structure Delivery where
  /-- The topic it was read from. -/
  topic : String
  /-- The partition of the topic. -/
  partition : Int
  /-- The identifier of the entry in its stream. -/
  offset : String
  /-- The content. -/
  payload : String
  /-- The key, if the entry has one. -/
  key : Option String
  /-- The headers, in order. -/
  headers : List (String × String)
deriving DecidableEq, Repr

namespace Fields

/-- The beginning of the names of fields that hold headers. -/
def headerMark : String := "h:"

/-- The fields of a message. -/
def ofMessage (key payload : String) (headers : List (String × String)) : Fields :=
  ("key", key) :: ("payload", payload) :: headers.map fun (name, v) => (headerMark ++ name, v)

/-- The value of a field. -/
def get? (fields : Fields) (name : String) : Option String :=
  (fields.find? (·.1 == name)).map (·.2)

/-- The header that a field holds, if it holds one; the mark is taken off once. -/
def header? (field : String × String) : Option (String × String) :=
  match field.1.toList with
  | 'h' :: ':' :: name => some (String.ofList name, field.2)
  | _ => none

end Fields

namespace Delivery

/-- The delivery of a stored entry. -/
def ofFields (topic : String) (partition : Int) (offset : String) (fields : Fields) : Delivery :=
  { topic, partition, offset
    payload := (fields.get? "payload").getD ""
    key := fields.get? "key"
    headers := fields.filterMap Fields.header? }

/-- The key under which the handling of the delivery is recorded: its coordinates. -/
def eventKey (d : Delivery) : String := s!"{d.topic}-{d.partition}-{d.offset}"

/-- The value of a header. -/
def header? (d : Delivery) (name : String) : Option String :=
  (d.headers.find? (·.1 == name)).map (·.2)

end Delivery

end EventRelay
