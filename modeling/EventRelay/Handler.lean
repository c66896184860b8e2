import EventRelay.Delivery
import EventRelay.Payload.Writer
import EventRelay.Store.Work
import EventRelay.Text.DecimalDigit

/-!
# Handling user events

What the tasks service does about an event of a user.  A deletion removes the user's tasks and
cache entry, a creation or change drops the cache entry.  The effect is committed together with
a record of the delivery's coordinates, so a repeated delivery is recognised and has no second
effect.

Producers of an older generation send free text instead of an envelope.  It is scanned for a
marker, and a deletion for the number in its last pair of parentheses.
-/

namespace EventRelay

/-- What became of a delivery. -/
inductive HandleOutcome where
  /-- It was handled. -/
  | processed
  /-- It had been handled before. -/
  | alreadyProcessed
deriving DecidableEq, Repr

/-- The word for an outcome. -/
def HandleOutcome.word : HandleOutcome → String
  | processed => "processed"
  | alreadyProcessed => "already_processed"

namespace Handler

/-! ## Free text -/

/-- Whether the character is a parenthesis. -/
def isParenthesis (c : Char) : Bool := c = '(' || c = ')'

/-- The digits of the last parenthesised group, if the text ends with a group of digits alone
and text without parentheses. -/
def groupDigits? (text : List Char) : Option (List Char) :=
  match text.reverse.dropWhile fun c => !isParenthesis c with
  | ')' :: r =>
    let digits := r.takeWhile DecimalDigit.isDigit
    match digits, r.dropWhile DecimalDigit.isDigit with
    | [], _ => none
    | _, '(' :: _ => some digits.reverse
    | _, _ => none
  | _ => none

/-- What a free text asks for. -/
inductive Request where
  /-- To delete the tasks of the user with these digits. -/
  | deleteUser (digits : List Char)
  /-- To delete the tasks of a user, but of none that could be found. -/
  | deleteUnknown
  /-- To forget all that is known of users. -/
  | forgetAll
  /-- Nothing. -/
  | nothing
deriving DecidableEq, Repr

/-- Whether the text has a marker. -/
def mentions (text : List Char) (marker : String) : Bool := Text.contains marker.toList text

/-- What a free text asks for; the marker of a deletion comes first. -/
def Request.ofText (text : List Char) : Request :=
  if mentions text "user.deleted" then
    match groupDigits? text with
    | some digits => .deleteUser digits
    | none => .deleteUnknown
  else if mentions text "user.updated" || mentions text "user.created" then .forgetAll
  else .nothing

/-! ## Effects -/

/-- Drops what is known of a user. -/
def evict (user : Int) : Work Unit := modify fun s => { s with cache := s.cache.evict user }

/-- Drops all that is known of users. -/
def evictAll : Work Unit := modify fun s => { s with cache := s.cache.evictAll }

/-- Removes the tasks of a deleted user. -/
def cascade (user : Int) : Work Unit := do
  Work.tell (.cascading user)
  let _ ← Work.taskCascade user
  evict user

/-- The effect of an envelope. -/
def applyEvent (e : UserEvent) : Work Unit :=
  match e.kind? with
  | some .deleted => cascade e.userId
  | some .created => evict e.userId
  | some .updated => evict e.userId
  | none => Work.tell (.unknownEventType e.eventType)

/-- The effect of a free text. -/
def applyText (raw : String) : Work Unit :=
  match Request.ofText raw.toList with
  | .deleteUser digits =>
    if digitsLimit < digits.length then throw (.numeralTooLong digits.length)
    else cascade (DecimalDigit.number digits)
  | .deleteUnknown => Work.tell (.noUserInText raw)
  | .forgetAll => evictAll
  | .nothing => Work.tell (.ignoredText raw)

/-- The effect of a payload; `legacy` tells whether free text is accepted. -/
def applyPayload (legacy : Bool) (raw : String) : Work Unit := do
  let now ← Work.now
  match UserEvent.ofWire (.ofInstant now) raw with
  | .ok e => applyEvent e
  | .error problems =>
    if legacy then
      Work.tell .unstructured
      applyText raw
    else throw (.unreadableEvent problems)

/-! ## Deliveries -/

/-- Records the delivery and commits it with its effect.  When the record is there in the
meantime, everything is given up. -/
def conclude (eventKey : String) : Work HandleOutcome :=
  tryCatch
    (do
      let now ← Work.now
      Work.ledgerAdd eventKey now
      Work.commit
      return .processed)
    fun e => do
      if e.isConstraint then
        Work.rollback
        Work.tell (.recordedConcurrently eventKey)
        return .alreadyProcessed
      else throw e

/-- Handles a delivery that is not in the ledger. -/
def handleNew (legacy : Bool) (d : Delivery) : Work HandleOutcome := do
  applyPayload legacy d.payload
  conclude d.eventKey

/-- Handles a delivery. -/
def handle (legacy : Bool) (d : Delivery) : Work HandleOutcome := do
  if ← Work.ledgerExists d.eventKey then
    Work.tell (.alreadyProcessed d.partition d.offset)
    return .alreadyProcessed
  else handleNew legacy d

end Handler

/-! ## Dead letters -/

/-- The notice of a dead letter: where it lies, where it came from, and why. -/
def Delivery.deadLetterNotice (d : Delivery) : Notice :=
  let header (name : String) := (d.header? name).getD "?"
  .deadLetter d.topic d.partition d.offset
    (header "original_topic", header "original_partition", header "original_offset")
    (header "error") d.payload

/-- The notice of a dead letter that may have come without any headers. -/
def Delivery.deadLetterNoticeWith (d : Delivery) (hasHeaders : Bool) : Notice :=
  if hasHeaders then d.deadLetterNotice else .deadLetterUntold d.offset

end EventRelay
