import EventRelay.Counter
import EventRelay.Event.Scalar
import EventRelay.Existence.Cache
import EventRelay.Outcome
import EventRelay.Store.Database

/-!
# Units of work

A unit of work stages changes to the tables; `commit` makes them the stored ones, and what is not
committed is lost.  Every database operation first plays the next outcome of its script, so any of
them can be made to wait or to raise.

All units of work share one connection, so they stage into the same tables: a commit stores, and
a roll-back drops, whatever is staged, by whomever.  One that has not used the connection since
its last commit or roll-back has nothing to commit or to drop.

A unit of work is a tree, as it may have to wait in the middle.  `Work.run` follows it with
nobody else about, so that it happens as one; others can be let in at its waits.

What happens outside the tables stays, committed or not: evictions from the existence cache,
counters and notices.
-/

namespace EventRelay

/-- The operations of a unit of work. -/
inductive DbOp where
  /-- Making the staged changes the stored ones. -/
  | commit
  /-- Sending staged changes to the database. -/
  | flush
  /-- Appending to the outbox. -/
  | outboxAdd
  /-- Looking a row of the outbox up. -/
  | outboxGet
  /-- Claiming rows. -/
  | outboxClaim
  /-- Recording a success. -/
  | outboxPublish
  /-- Recording a failure. -/
  | outboxFail
  /-- Taking stale claims back. -/
  | outboxRelease
  /-- Removing published rows. -/
  | outboxPurge
  /-- Asking the ledger. -/
  | ledgerExists
  /-- Adding to the ledger. -/
  | ledgerAdd
  /-- Looking a user up. -/
  | userGet
  /-- Asking for a user. -/
  | userExists
  /-- Looking a user up by address. -/
  | userByEmail
  /-- Adding a user. -/
  | userAdd
  /-- Changing a user. -/
  | userUpdate
  /-- Removing a user. -/
  | userDelete
  /-- Looking a task up. -/
  | taskGet
  /-- Adding a task. -/
  | taskAdd
  /-- Changing a task. -/
  | taskUpdate
  /-- Removing a task. -/
  | taskDelete
  /-- Removing the tasks of a user. -/
  | taskCascade
deriving DecidableEq, Repr

/-- The outcomes of the next calls of each operation.  An answer is a number; as a truth value
zero means no. -/
abbrev DbScript := DbOp → List (Outcome Int)

/-- A script without outcomes: everything goes through. -/
def DbScript.none : DbScript := fun _ => []

/-- What a unit of work works on. -/
structure Session where
  /-- The time. -/
  now : Instant
  /-- The tables as they are stored. -/
  stored : Database
  /-- The tables with the changes staged so far. -/
  staged : Database
  /-- Whether the unit of work has used the connection since its last commit or roll-back. -/
  begun : Bool
  /-- What the next operations are made to do. -/
  script : DbScript
  /-- The existence cache beside the database. -/
  cache : Cache
  /-- The counters. -/
  tally : Tally
  /-- The notices, in order. -/
  notices : List Notice

/-- A program over a session. -/
inductive Work (α : Type) where
  /-- It ends. -/
  | done (result : Except Failure α)
  /-- It looks at the session. -/
  | look (next : Session → Work α)
  /-- It changes the session. -/
  | change (f : Session → Session) (next : Work α)
  /-- It waits, and may be cancelled meanwhile. -/
  | lag (span : Span) (next : Except Failure Unit → Work α)

namespace Work

variable {α β : Type}

/-- Goes on after a program, however it ends. -/
def whenDone (w : Work α) (k : Except Failure α → Work β) : Work β :=
  match w with
  | done r => k r
  | look next => look fun s => (next s).whenDone k
  | change f next => change f (next.whenDone k)
  | lag span next => lag span fun r => (next r).whenDone k

/-- Goes on after a program that ends well. -/
def bind (w : Work α) (k : α → Work β) : Work β :=
  w.whenDone fun
    | .ok a => k a
    | .error e => done (.error e)

instance : Monad Work where
  pure a := done (.ok a)
  bind := bind

instance : MonadExceptOf Failure Work where
  throw e := done (.error e)
  tryCatch w handler := w.whenDone fun
    | .ok a => done (.ok a)
    | .error e => handler e

instance : MonadStateOf Session Work where
  get := look fun s => done (.ok s)
  set s := change (fun _ => s) (done (.ok ()))
  modifyGet f := look fun s => change (fun _ => (f s).2) (done (.ok (f s).1))

/-! ## Running -/

/-- Follows a program with nobody else about: how it ends, and the session then. -/
def follow : Work α → Session → Except Failure α × Session
  | done r, s => (r, s)
  | look next, s => (next s).follow s
  | change f next, s => next.follow (f s)
  | lag span next, s => (next (.ok ())).follow { s with now := s.now + span }

/-- A session in which nothing is staged. -/
def settled (s : Session) : Session := { s with staged := s.stored, begun := false }

/-- Runs a unit of work; whatever was not committed is dropped. -/
def run (w : Work α) (s : Session) : Except Failure α × Session :=
  let (r, s) := w.follow (settled s)
  (r, settled s)

/-- What comes after a program is followed from where the program ended. -/
theorem follow_whenDone (w : Work α) (k : Except Failure α → Work β) (s : Session) :
    (w.whenDone k).follow s = (k (w.follow s).1).follow (w.follow s).2 := by
  induction w generalizing s with
  | done r => rfl
  | look next ih => exact ih s s
  | change f next ih => exact ih (f s)
  | lag span next ih => exact ih (.ok ()) _

/-- What comes after a program is followed if the program ends well. -/
theorem follow_bind (w : Work α) (k : α → Work β) (s : Session) :
    (w >>= k).follow s =
      match w.follow s with
      | (.ok a, s) => (k a).follow s
      | (.error e, s) => (.error e, s) := by
  refine (follow_whenDone w _ s).trans ?_
  rcases w.follow s with ⟨_ | _, _⟩ <;> rfl

/-- A handler is followed if the program fails. -/
theorem follow_tryCatch (w : Work α) (handler : Failure → Work α) (s : Session) :
    (tryCatch w handler).follow s =
      match w.follow s with
      | (.ok a, s) => (.ok a, s)
      | (.error e, s) => (handler e).follow s := by
  refine (follow_whenDone w _ s).trans ?_
  rcases w.follow s with ⟨_ | _, _⟩ <;> rfl

/-- A program that does nothing leaves the session. -/
@[simp] theorem follow_pure (a : α) (s : Session) :
    (pure a : Work α).follow s = (.ok a, s) := rfl

/-- A program that fails at once leaves the session. -/
@[simp] theorem follow_throw (e : Failure) (s : Session) :
    (throw e : Work α).follow s = (.error e, s) := rfl

/-- A look at the session leaves it. -/
@[simp] theorem follow_get (s : Session) : (get : Work Session).follow s = (.ok s, s) := rfl

/-- A session that is put in place of another. -/
@[simp] theorem follow_set (t s : Session) : (set t : Work Unit).follow s = (.ok (), t) := rfl

/-- A change of the session. -/
@[simp] theorem follow_modify (f : Session → Session) (s : Session) :
    (modify f : Work Unit).follow s = (.ok (), f s) := rfl

/-! ## Steps -/

/-- Tells the operators something. -/
def tell (n : Notice) : Work Unit := modify fun s => { s with notices := s.notices ++ [n] }

/-- Lets a counter grow. -/
def count (c : Counter) (amount : Nat) : Work Unit :=
  modify fun s => { s with tally := s.tally.grow c amount }

/-- A program that ends with a result at once. -/
def ofExcept (r : Except Failure α) : Work α := done r

/-- The time. -/
def now : Work Instant := do return (← get).now

/-- Waits for some time; for none at all it does not wait. -/
def pause (span : Span) : Work Unit := if span ≤ 0 then pure () else lag span done

/-- Takes the next outcome of an operation off its script, and its time. -/
def outcome (op : DbOp) : Work (Turn Int) := do
  let s ← get
  let (o, rest) := Outcome.next (s.script op)
  set { s with script := fun op' => if op' = op then rest else s.script op' }
  pause o.delay
  return o.turn

/-- Performs an operation as its script says: it may take time, and then raises, answers by
itself, or is really done. -/
def perform (op : DbOp) (answer : Int → α) (real : Work α) : Work α := do
  match ← outcome op with
  | .through => real
  | .raise e => throw e
  | .answer n => return answer n

/-- Performs an operation that gives no answers by itself. -/
def attempt (op : DbOp) (real : Work α) : Work α := do
  match ← outcome op with
  | .raise e => throw e
  | _ => real

/-- Begins to use the connection. -/
def begin : Work Unit := modify fun s => { s with begun := true }

/-- Begins to use the connection, with an integer for a column that must hold it. -/
def word (n : Int) : Work Unit := do
  begin
  if Scalar.fitsWord n then return () else throw .integerTooLarge

/-- Reads the staged tables. -/
def inspect (f : Database → α) : Work α := do
  begin
  return f (← get).staged

/-- Changes the staged tables. -/
def stage (f : Database → α × Database) : Work α := do
  begin
  modifyGet fun s =>
    let (a, staged) := f s.staged
    (a, { s with staged })

/-- Changes the staged tables, or fails and leaves them. -/
def stageOrFail (f : Database → Except Failure (α × Database)) : Work α := do
  begin
  let s ← get
  match f s.staged with
  | .ok (a, staged) =>
    set { s with staged }
    return a
  | .error e => throw e

/-- Makes what is staged the stored tables. -/
def commit : Work Unit :=
  perform .commit (fun _ => ()) <| modify fun s =>
    if s.begun then { s with stored := s.staged, begun := false } else s

/-- Drops what is staged. -/
def rollback : Work Unit := modify fun s => if s.begun then settled s else s

/-- Sends the staged changes to the database; they are there already. -/
def flush : Work Unit := attempt .flush (return ())

/-! ## The outbox -/

/-- Appends an event to the outbox. -/
def outboxAdd (eventType topic payload : Option String) (key : Option String)
    (createdAt : Instant) : Work OutboxRow :=
  attempt .outboxAdd do
    match eventType, topic, payload with
    | some eventType, some topic, some payload =>
      stage fun d =>
        let (row, outbox) := d.outbox.append eventType topic payload key createdAt
        (row, { d with outbox })
    | _, _, _ => throw .constraint

/-- Looks a row of the outbox up. -/
def outboxGet (id : Int) : Work (Option OutboxRow) :=
  attempt .outboxGet do
    word id
    inspect (·.outbox.get? id)

/-- Claims rows of the outbox. -/
def outboxClaim (batch : Int) (now : Instant) : Work (List OutboxRow) :=
  attempt .outboxClaim do
    word batch
    stage fun d =>
      let (rows, outbox) := d.outbox.claim batch now
      (rows, { d with outbox })

/-- Records that the broker accepted a row. -/
def outboxPublish (id : Int) (now : Instant) : Work Bool :=
  attempt .outboxPublish do
    word id
    stage fun d =>
      let (hit, outbox) := d.outbox.markPublished id now
      (hit, { d with outbox })

/-- Records that a send failed. -/
def outboxFail (id retryCount : Int) (cause : Option String) (status : OutboxStatus) : Work Bool :=
  attempt .outboxFail do
    word id
    word retryCount
    stage fun d =>
      let (hit, outbox) := d.outbox.changeClaimed id fun r =>
        { r with status, retryCount, errorMessage := cause }
      (hit, { d with outbox })

/-- Takes stale claims back. -/
def outboxRelease (olderThan : Instant) (maxRetries : Int) : Work Int :=
  perform .outboxRelease id do
    word maxRetries
    stage fun d =>
      let (n, outbox) := d.outbox.releaseStale olderThan maxRetries
      ((n : Int), { d with outbox })

/-- Removes published rows. -/
def outboxPurge (cutoff : Instant) : Work Nat :=
  attempt .outboxPurge do
    stage fun d =>
      let (n, outbox) := d.outbox.purge cutoff
      (n, { d with outbox })

/-! ## The ledger -/

/-- Whether a delivery was handled. -/
def ledgerExists (eventKey : String) : Work Bool :=
  perform .ledgerExists (· ≠ 0) (inspect (·.isRecorded eventKey))

/-- Records that a delivery was handled. -/
def ledgerAdd (eventKey : Option String) (now : Instant) : Work Unit :=
  attempt .ledgerAdd <| stageOrFail fun d =>
    match eventKey with
    | some eventKey => (d.record eventKey now).map ((), ·)
    | none => .error .constraint

/-! ## Users -/

/-- Looks a user up. -/
def userGet (id : Int) : Work (Option User) :=
  attempt .userGet do
    word id
    inspect (·.user? id)

/-- Whether there is such a user. -/
def userExists (id : Int) : Work Bool :=
  attempt .userExists do
    word id
    inspect fun d => (d.user? id).isSome

/-- Looks a user up by address. -/
def userByEmail (email : Option String) : Work (Option User) :=
  attempt .userByEmail (inspect (·.userByEmail? email))

/-- Adds a user. -/
def userAdd (email firstName lastName : Option String) (now : Instant) : Work User :=
  attempt .userAdd <| stageOrFail fun d => d.addUser email firstName lastName now

/-- Changes the names of a user. -/
def userUpdate (id : Int) (firstName lastName : Option String) (now : Instant) : Work User :=
  attempt .userUpdate do
    word id
    stageOrFail fun d => d.updateUser id firstName lastName now

/-- Removes a user. -/
def userDelete (id : Int) : Work Unit :=
  attempt .userDelete do
    word id
    stage fun d => ((), d.deleteUser id)

/-! ## Tasks -/

/-- Looks a task up. -/
def taskGet (id : Int) : Work (Option Task) :=
  attempt .taskGet do
    word id
    inspect (·.task? id)

/-- Adds a task. -/
def taskAdd (userId : Int) (title description status : Option String) (now : Instant) :
    Work Task :=
  attempt .taskAdd do
    word userId
    stageOrFail fun d => d.addTask userId title description status now

/-- Changes a task. -/
def taskUpdate (id : Int) (title description status : Option String) (now : Instant) :
    Work Task :=
  attempt .taskUpdate do
    word id
    stageOrFail fun d => d.updateTask id title description status now

/-- Removes a task. -/
def taskDelete (id : Int) : Work Unit :=
  attempt .taskDelete do
    word id
    stage fun d => ((), d.deleteTask id)

/-- Removes the tasks of a user. -/
def taskCascade (user : Int) : Work Int :=
  perform .taskCascade id do
    word user
    stage fun d =>
      let (n, d) := d.deleteTasksOf user
      ((n : Int), d)

end Work

end EventRelay
