import EventRelay.Payload.Value

/-!
# Writing payloads

The wire string of an outgoing event.  Text goes out as it is, an envelope in its compact form,
and a free-form value as spaced JSON in the ASCII alphabet; identifiers and moments inside it
are written as strings.  What has no written form is an `Unwritable` cause.

Nesting deeper than `nestingLimit` is a failure of its own kind, apart from `Unwritable`.
-/

namespace EventRelay

/-- What a service hands over to be sent. -/
inductive Payload where
  /-- Text that is sent as it is. -/
  | text (value : String)
  /-- An event about a user. -/
  | user (event : UserEvent)
  /-- An event about a task. -/
  | task (event : TaskEvent)
  /-- Any other value. -/
  | value (value : Value)

/-- The deepest nesting that is written.  It is no rule of the format: the writer calls itself for
each level, a thousand calls may be under way in all, and a service that hands a payload over has
made about twenty of them.  An identifier or a moment at the innermost level takes a few calls more,
which are not counted. -/
def nestingLimit : Nat := 980

/-- The longest integer that is written out. -/
def digitsLimit : Nat := 4300

/-- A unique identifier with dashes between its five groups. -/
def dashed (digits : String) : String :=
  let cs := digits.toList
  let group (start count : Nat) := String.ofList ((cs.drop start).take count)
  "-".intercalate [group 0 8, group 8 4, group 12 4, group 16 4, group 20 12]

namespace Value

/-- The digits of an integer, unless there are too many. -/
def integerText (n : Int) : Except Failure String :=
  let s := toString n
  if digitsLimit < (toString n.natAbs).length then .error (.unwritable .longInteger) else .ok s

/-- The name under which a member is written. -/
def nameText : Value → Except Failure String
  | text s => .ok s
  | float x => .ok (Number.FloatStyle.document.text x)
  | bool b => .ok (Json.boolText b)
  | null => .ok "null"
  | int n => integerText n
  | v => .error (.unwritable (.key v.qualifiedTypeName))

mutual

/-- The written form of a value; the number is the depth that is left. -/
def write (l : Json.Layout) : Nat → Value → Except Failure String
  | _, null => .ok "null"
  | _, bool b => .ok (Json.boolText b)
  | _, int n => integerText n
  | _, float x => .ok (Number.FloatStyle.document.text x)
  | _, text s => .ok (l.quote s)
  | _, uuid digits => .ok (l.quote (dashed digits))
  | _, moment t => .ok (l.quote t.isoText)
  | 0, list _ => .error .nestedTooDeep
  | 0, tuple _ => .error .nestedTooDeep
  | 0, dict _ => .error .nestedTooDeep
  | depth + 1, list items => (writeItems l depth items).map l.array
  | depth + 1, tuple items => (writeItems l depth items).map l.array
  | depth + 1, dict members => (writeMembers l depth members).map l.object
  | _, cyclic => .error (.unwritable .cyclic)
  | _, v => .error (.unwritable (.value v.typeName))

/-- The written forms of items. -/
def writeItems (l : Json.Layout) : Nat → List Value → Except Failure (List String)
  | _, [] => .ok []
  | depth, v :: vs =>
    match write l depth v with
    | .error e => .error e
    | .ok s => (writeItems l depth vs).map (s :: ·)

/-- The names and written forms of members. -/
def writeMembers (l : Json.Layout) :
    Nat → List (Value × Value) → Except Failure (List (String × String))
  | _, [] => .ok []
  | depth, (name, v) :: ms =>
    match nameText name with
    | .error e => .error e
    | .ok n =>
      match write l depth v with
      | .error e => .error e
      | .ok s => (writeMembers l depth ms).map ((n, s) :: ·)

end

end Value

namespace Payload

/-- The wire string of a payload. -/
def wire : Payload → Except Failure String
  | text s => .ok s
  | user e => .ok e.wire
  | task e => .ok e.wire
  | value (.text s) => .ok s
  | value v => v.write .spaced nestingLimit

end Payload

end EventRelay
