/-!
# Kinds of change

What happened to a user or a task, and how producers spell it: the last part of a dotted tag, in
upper or lower case, so that `DELETED` and `user.deleted` say the same.
-/

namespace EventRelay

/-- What happened to an entity. -/
inductive ChangeKind where
  /-- It was created. -/
  | created
  /-- It was changed. -/
  | updated
  /-- It was deleted. -/
  | deleted
deriving DecidableEq, Repr

namespace ChangeKind

/-- The tag of a kind. -/
def tag : ChangeKind → String
  | created => "CREATED"
  | updated => "UPDATED"
  | deleted => "DELETED"

/-- The word for a kind in topics, labels and event types. -/
def word : ChangeKind → String
  | created => "created"
  | updated => "updated"
  | deleted => "deleted"

/-- The kind with the given tag. -/
def ofTag? (tag : String) : Option ChangeKind :=
  [created, updated, deleted].find? (·.tag == tag)

/-- The part of an event type after its last dot. -/
def lastPart (eventType : String) : List Char :=
  (eventType.toList.reverse.takeWhile (· ≠ '.')).reverse

/-- The kind that an event type spells, if it spells one.  Letters outside ASCII are in no tag,
so their case does not matter. -/
def ofEventType? (eventType : String) : Option ChangeKind :=
  ofTag? (String.ofList ((lastPart eventType).map Char.toUpper))

end ChangeKind

end EventRelay
