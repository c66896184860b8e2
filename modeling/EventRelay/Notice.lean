import EventRelay.Failure

/-!
# Notices

What the program tells its operators: warnings about what it recovered from, and errors about
what it gave up.  A notice is a cause; its wording is a function of it.
-/

namespace EventRelay

/-- How grave a notice is. -/
inductive Level where
  /-- Something unusual that was dealt with. -/
  | warning
  /-- Something that was lost or given up. -/
  | error
deriving DecidableEq, Repr

/-- The word for a level. -/
def Level.word : Level → String
  | warning => "WARNING"
  | error => "ERROR"

/-- What is told to the operators. -/
inductive Notice where
  /-- A circuit opened after so many failures in a row. -/
  | circuitTripped (circuit : String) (failures : Int)
  /-- A circuit opened again because its trial failed. -/
  | trialFailed (circuit : String)
  /-- A remote existence check failed for good. -/
  | checkFailed (user : Int) (cause : Failure)
  /-- A stale entry of the cache was trusted. -/
  | staleTrusted (user : Int) (reason : String)
  /-- A user was taken to exist for want of an answer. -/
  | existenceAssumed (user : Int) (reason : String)
  /-- An event was dropped because its payload has no written form. -/
  | eventDropped (eventType topic : String) (cause : Unwritable)
  /-- A delivery was handled before. -/
  | alreadyProcessed (partition : Int) (offset : String)
  /-- A delivery is no structured event. -/
  | unstructured
  /-- Another handler recorded the delivery in the meantime. -/
  | recordedConcurrently (eventKey : String)
  /-- A structured event is of no known kind. -/
  | unknownEventType (eventType : String)
  /-- A free-text deletion names no user. -/
  | noUserInText (text : String)
  /-- A free text means nothing. -/
  | ignoredText (text : String)
  /-- A user was deleted and the tasks are to follow. -/
  | cascading (user : Int)
  /-- A consumer met an error and pauses. -/
  | consumerPaused (stream : String)
  /-- An idle entry was taken over. -/
  | reclaimed (entry stream : String)
  /-- A delivery failed and stays pending. -/
  | leftPending (entry : String) (partition : Int)
  /-- A delivery was given up and moved to the dead-letter topic. -/
  | deadLettered (eventKey : String) (attempts : Int) (target : String) (cause : Failure)
  /-- A dead letter was received. -/
  | deadLetter (topic : String) (partition : Int) (offset : String)
      (origin : String × String × String) (error payload : String)
  /-- A dead letter without any headers was received, and could not be told of in full. -/
  | deadLetterUntold (offset : String)
  /-- Claims of the outbox were released by the watchdog. -/
  | staleReleased (count : Nat)
  /-- A row was no longer claimed when its send had succeeded. -/
  | publishNotRecorded (row : Int)
  /-- A row was no longer claimed when its send had failed. -/
  | failureNotRecorded (row : Int)
  /-- A row was given up. -/
  | rowFailed (row : Int) (eventType : String) (attempts : Int) (cause : String)
  /-- A row goes back for another attempt. -/
  | rowRetried (row : Int) (eventType : String) (attempt limit : Int) (cause : String)
  /-- A tick of a periodic task failed. -/
  | tickFailed (task : String)
deriving DecidableEq, Repr

namespace Notice

/-- How grave the notice is. -/
def level : Notice → Level
  | circuitTripped .. => .error
  | trialFailed .. => .error
  | eventDropped .. => .error
  | noUserInText .. => .error
  | consumerPaused .. => .error
  | leftPending .. => .error
  | deadLettered .. => .error
  | deadLetter .. => .error
  | deadLetterUntold .. => .error
  | rowFailed .. => .error
  | tickFailed .. => .error
  | _ => .warning

/-- How the cause of a failed check is told: faults of the answer by their kind alone. -/
def checkCause : Failure → String
  | f@(.badAnswer (.status)) => "<" ++ f.kind ++ ">"
  | f@(.badAnswer (.body)) => "<" ++ f.kind ++ ">"
  | f@(.badAnswer (.shape _)) => "<" ++ f.kind ++ ">"
  | f => f.message

/-- The wording of the notice. -/
def message : Notice → String
  | circuitTripped circuit failures => s!"Circuit {circuit} open: {failures} consecutive failures"
  | trialFailed circuit => s!"Circuit {circuit} open: half-open trial failed"
  | checkFailed user cause => s!"Existence check for user {user} failed: " ++ checkCause cause
  | staleTrusted user reason => s!"Using stale cache entry for user {user} ({reason})"
  | existenceAssumed user reason =>
    s!"No usable cache entry for user {user} ({reason}), assuming it exists"
  | eventDropped eventType topic cause =>
    s!"Failed to serialize {eventType} event for topic {topic}, event dropped: " ++ cause.message
  | alreadyProcessed partition offset =>
    s!"Event already processed: partition={partition} offset={offset}"
  | unstructured => "Unstructured user event, falling back to text scan"
  | recordedConcurrently eventKey => s!"Event {eventKey} recorded concurrently, skipping"
  | unknownEventType eventType => s!"Unknown user event type: {eventType}"
  | noUserInText text => s!"Could not extract user id from message: {text}"
  | ignoredText text => s!"Ignoring unrecognised user event: {text}"
  | cascading user => s!"User {user} deleted, removing orphaned tasks"
  | consumerPaused stream => s!"Stream consumer error on {stream}, retrying in 5s"
  | reclaimed entry stream => s!"Reclaimed idle message {entry} on {stream}"
  | leftPending entry partition =>
    s!"Error processing stream message {entry} (partition={partition}), left pending"
  | deadLettered eventKey attempts target cause =>
    s!"Message {eventKey} exhausted {attempts} attempts, moved to {target}: " ++ cause.message
  | deadLetter topic partition offset (oTopic, oPartition, oOffset) error payload =>
    s!"DEAD LETTER on {topic} partition={partition} offset={offset} " ++
      s!"(original {oTopic}/{oPartition}/{oOffset}, error={error}): {payload}"
  | deadLetterUntold offset => s!"Failed to log dead-letter message {offset}"
  | staleReleased count => s!"Released {count} stale PROCESSING outbox events"
  | publishNotRecorded row =>
    s!"Outbox event {row} was no longer PROCESSING, publish not recorded"
  | failureNotRecorded row =>
    s!"Outbox event {row} was no longer PROCESSING, failure not recorded"
  | rowFailed row eventType attempts cause =>
    s!"Outbox event {row} ({eventType}) permanently failed after {attempts} attempts: {cause}"
  | rowRetried row eventType attempt limit cause =>
    s!"Outbox event {row} ({eventType}) failed, attempt {attempt}/{limit}: {cause}"
  | tickFailed task => s!"Periodic task {task} failed"

end Notice

end EventRelay
