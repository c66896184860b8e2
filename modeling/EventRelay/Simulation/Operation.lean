import EventRelay.Service.Tasks
import EventRelay.Service.Users
import EventRelay.Simulation.Activity
import EventRelay.Simulation.Answer

/-!
# Operations on the database

The operations that a rehearsal can perform in a unit of work, alone or several in one: those on
the tables, and those of the services.  An operation on a table that stands alone is committed
after it; the services commit by themselves.
-/

namespace EventRelay.Simulation

/-- An operation of a unit of work. -/
inductive Operation where
  /-- Append a row to the outbox. -/
  | outboxAdd (eventType topic payload key : Option String) (createdAt : Option Instant)
  /-- Look a row of the outbox up. -/
  | outboxGet (id : Int)
  /-- Claim rows. -/
  | outboxClaim (batch : Int)
  /-- Record that a row was published. -/
  | outboxPublish (id : Int)
  /-- Record that a send failed. -/
  | outboxFail (id retryCount : Int) (cause : Option String) (status : String)
  /-- Take stale claims back. -/
  | outboxRelease (olderThan : Instant) (maxRetries : Int)
  /-- Remove published rows. -/
  | outboxPurge (cutoff : Instant)
  /-- Ask the ledger. -/
  | ledgerExists (eventKey : String)
  /-- Add to the ledger. -/
  | ledgerAdd (eventKey : Option String)
  /-- Look a user up. -/
  | userGet (id : Int)
  /-- Ask for a user. -/
  | userExists (id : Int)
  /-- Look a user up by address. -/
  | userByEmail (email : Option String)
  /-- Add a user. -/
  | userAdd (email firstName lastName : Option String)
  /-- Change a user. -/
  | userUpdate (id : Int) (firstName lastName : Option String)
  /-- Remove a user. -/
  | userDelete (id : Int)
  /-- Look a task up. -/
  | taskGet (id : Int)
  /-- Add a task. -/
  | taskAdd (user : Int) (title description status : Option String)
  /-- Change a task. -/
  | taskUpdate (id : Int) (title description status : Option String)
  /-- Remove a task. -/
  | taskDelete (id : Int)
  /-- Remove the tasks of a user. -/
  | taskCascade (user : Int)
  /-- Announce an event; the payload may have failed to be built. -/
  | announce (eventType topic : Option String) (payload : Except Failure Payload)
      (key : Option String)
  /-- Send staged changes to the database. -/
  | flush
  /-- Create a user, with its event. -/
  | createUser (email firstName lastName : Option String)
  /-- Change a user, with its event. -/
  | updateUser (id : Int) (firstName lastName : Option String)
  /-- Delete a user, with its event. -/
  | deleteUser (id : Int)
  /-- Ask the users service's own table for a user. -/
  | hasUser (id : Int)
  /-- Create a task, with its event. -/
  | createTask (user : Int) (title description : Option String)
  /-- Change a task, with its event. -/
  | updateTask (id : Int) (title description : Option String) (status : String)
  /-- Delete a task, with its event. -/
  | deleteTask (id : Int)

namespace Operation

/-- The user whose existence is checked before the operation. -/
def owner? : Operation → Option Int
  | createTask user _ _ => some user
  | _ => none

/-- Whether the operation commits by itself. -/
def commits : Operation → Bool
  | createUser .. => true
  | updateUser .. => true
  | deleteUser .. => true
  | hasUser .. => true
  | createTask .. => true
  | updateTask .. => true
  | deleteTask .. => true
  | _ => false

/-- A status, or the failure that there is no such status. -/
def status {α : Type} (kind : String) (read : String → Option α) (word : String) : Work α :=
  match read word with
  | some a => return a
  | none => throw (.noSuchStatus word kind)

/-- What the operation does; `owner` is the answer about the user that was checked. -/
def work (s : Settings) (owner : Except Failure Unit) : Operation → Work Answer
  | outboxAdd eventType topic payload key createdAt => do
    let now ← Work.now
    let createdAt ← Work.ofExcept (createdAt.getD now).dated
    return .event (← Work.outboxAdd eventType topic payload key createdAt)
  | outboxGet id => return .event (← Work.outboxGet id)
  | outboxClaim batch => do return .events (← Work.outboxClaim batch (← Work.now))
  | outboxPublish id => do return .truth (← Work.outboxPublish id (← Work.now))
  | outboxFail id retryCount cause word => do
    let status ← status "OutboxStatus" OutboxStatus.ofWord? word
    return .truth (← Work.outboxFail id retryCount cause status)
  | outboxRelease olderThan maxRetries => do
    return .number (← Work.outboxRelease (← Work.ofExcept olderThan.dated) maxRetries)
  | outboxPurge cutoff => do
    return .number (← Work.outboxPurge (← Work.ofExcept cutoff.dated))
  | ledgerExists eventKey => return .truth (← Work.ledgerExists eventKey)
  | ledgerAdd eventKey => do
    Work.ledgerAdd eventKey (← Work.now)
    return .nothing
  | userGet id => return .user (← Work.userGet id)
  | userExists id => return .truth (← Work.userExists id)
  | userByEmail email => return .user (← Work.userByEmail email)
  | userAdd email firstName lastName => do
    return .user (← Work.userAdd email firstName lastName (← Work.now))
  | userUpdate id firstName lastName => do
    return .user (← Work.userUpdate id firstName lastName (← Work.now))
  | userDelete id => do
    Work.userDelete id
    return .nothing
  | taskGet id => return .task (← Work.taskGet id)
  | taskAdd user title description status => do
    return .task (← Work.taskAdd user title description status (← Work.now))
  | taskUpdate id title description status => do
    return .task (← Work.taskUpdate id title description status (← Work.now))
  | taskDelete id => do
    Work.taskDelete id
    return .nothing
  | taskCascade user => return .number (← Work.taskCascade user)
  | announce eventType topic payload key => do
    match payload with
    | .ok payload => return .event (← Service.announce eventType topic payload key)
    | .error e => throw e
  | flush => do
    Work.flush
    return .nothing
  | createUser email firstName lastName =>
    return .user (← Service.createUser s.userTopic email firstName lastName)
  | updateUser id firstName lastName =>
    return .user (← Service.updateUser s.userTopic id firstName lastName)
  | deleteUser id => do
    Service.deleteUser s.userTopic id
    return .nothing
  | hasUser id => return .truth (← Work.userExists id)
  | createTask user title description =>
    return .task (← Service.createTask s.taskTopic owner user title description)
  | updateTask id title description word => do
    let status ← status "TaskStatus" TaskStatus.ofWord? word
    return .task (← Service.updateTask s.taskTopic id title description status)
  | deleteTask id => do
    Service.deleteTask s.taskTopic id
    return .nothing

/-- The answer about the user that is checked before the operation. -/
def checkOwner (op : Operation) : Plan (Except Failure Unit) :=
  match op.owner? with
  | some user => (Plan.check user).attempt
  | none => return .ok ()

/-- The operation in a unit of work of its own. -/
def alone (op : Operation) : Plan Answer := do
  let owner ← op.checkOwner
  let settings := (← Plan.world).settings
  Plan.unit .bench do
    let answer ← op.work settings owner
    if !op.commits then Work.commit
    return answer

/-- Operations in one unit of work, up to the first that fails: their answers, the failure, and
whether the unit has used the connection. -/
def series : List Operation → Bool → List (Except Failure Answer) →
    Plan (List (Except Failure Answer) × Option Failure × Bool)
  | [], begun, answers => return (answers.reverse, none, begun)
  | op :: rest, begun, answers => do
    let owner ← op.checkOwner
    let settings := (← Plan.world).settings
    let (answer, begun) ← Plan.part .bench (op.work settings owner) begun
    match answer with
    | .ok _ => series rest begun (answer :: answers)
    | .error e => return ((answer :: answers).reverse, some e, begun)

end Operation

/-- How a unit of work ends when all its operations went well. -/
inductive Ending where
  /-- With a commit. -/
  | commit
  /-- With a roll-back. -/
  | rollback
  /-- With a failure. -/
  | fail (cause : Failure)
deriving DecidableEq, Repr

/-- Brings a unit of work whose operations went well to its ending. -/
def Ending.carryOut (ending : Ending) (begun : Bool) : Plan (Option Failure × Bool) :=
  match ending with
  | .rollback => return (none, begun)
  | .fail e => return (some e, begun)
  | .commit => do
    let (result, begun) ← Plan.part .bench Work.commit begun
    return match result with
      | .ok () => (none, begun)
      | .error e => (some e, begun)

/-- Operations in one unit of work.  A failure is part of the answer, unless it is a
cancellation. -/
def transaction (ops : List Operation) (ending : Ending) : Plan Answer := do
  let (answers, cause, begun) ← Operation.series ops false []
  let (cause, begun) ← match cause with
    | some e => pure (some e, begun)
    | none => ending.carryOut begun
  Plan.conclude begun
  match cause with
  | some e => if e.isCancellation then Plan.fail e else return .transaction answers cause
  | none => return .transaction answers none

end EventRelay.Simulation
