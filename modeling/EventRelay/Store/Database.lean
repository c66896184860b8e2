import EventRelay.Failure
import EventRelay.Store.Outbox

/-!
# The database

The four tables, and the operations on users, tasks and the ledger.  E-mail addresses and ledger
keys occur at most once, and some columns must have a value; an operation that would break such
a constraint fails and changes nothing.
-/

namespace EventRelay

/-- All tables. -/
structure Database where
  /-- Outgoing events. -/
  outbox : Outbox
  /-- Handled deliveries. -/
  ledger : List LedgerRow
  /-- Users. -/
  users : List User
  /-- Tasks. -/
  tasks : List Task
deriving DecidableEq, Repr

namespace Database

/-- The tables without rows. -/
def empty : Database := ⟨[], [], [], []⟩

/-! ## The ledger -/

/-- Whether a delivery was handled. -/
def isRecorded (d : Database) (eventKey : String) : Bool := d.ledger.any (·.eventKey = eventKey)

/-- What is recorded is told by the ledger alone. -/
theorem isRecorded_congr {d d' : Database} (h : d'.ledger = d.ledger) (eventKey : String) :
    d'.isRecorded eventKey = d.isRecorded eventKey := by
  unfold isRecorded
  rw [h]

/-- One row more records its key, and no other. -/
theorem isRecorded_append_iff {d d' : Database} {row : LedgerRow}
    (h : d'.ledger = d.ledger ++ [row]) (eventKey : String) :
    d'.isRecorded eventKey = true ↔ d.isRecorded eventKey = true ∨ row.eventKey = eventKey := by
  unfold isRecorded
  rw [h, List.any_append, Bool.or_eq_true, List.any_cons, List.any_nil, Bool.or_false,
    decide_eq_true_eq]

/-- Records that a delivery was handled. -/
def record (d : Database) (eventKey : String) (now : Instant) : Except Failure Database :=
  if d.isRecorded eventKey then .error .constraint
  else
    let row : LedgerRow := ⟨nextId (d.ledger.map (·.id)), eventKey, now⟩
    .ok { d with ledger := d.ledger ++ [row] }

/-! ## Users -/

/-- The user with that identifier. -/
def user? (d : Database) (id : Int) : Option User := d.users.find? (·.id = id)

/-- The user with that e-mail address. -/
def userByEmail? (d : Database) (email : Option String) : Option User :=
  email.bind fun email => d.users.find? (·.email = email)

/-- Adds a user. -/
def addUser (d : Database) (email firstName lastName : Option String) (now : Instant) :
    Except Failure (User × Database) :=
  match email with
  | none => .error .constraint
  | some email =>
    if d.users.any (·.email = email) then .error .constraint
    else
      let u : User := ⟨nextId (d.users.map (·.id)), email, firstName, lastName, now, now⟩
      .ok (u, { d with users := d.users ++ [u] })

/-- Changes the names of a user. -/
def updateUser (d : Database) (id : Int) (firstName lastName : Option String) (now : Instant) :
    Except Failure (User × Database) :=
  match d.user? id with
  | none => .error (.noSuchUser id)
  | some u =>
    let u := { u with firstName, lastName, updatedAt := now }
    .ok (u, { d with users := d.users.map fun v => if v.id = id then u else v })

/-- Removes a user. -/
def deleteUser (d : Database) (id : Int) : Database :=
  { d with users := d.users.filter (·.id ≠ id) }

/-! ## Tasks -/

/-- The task with that identifier. -/
def task? (d : Database) (id : Int) : Option Task := d.tasks.find? (·.id = id)

/-- Adds a task. -/
def addTask (d : Database) (userId : Int) (title description : Option String)
    (status : Option String) (now : Instant) : Except Failure (Task × Database) :=
  match title, status with
  | some title, some status =>
    let t : Task := ⟨nextId (d.tasks.map (·.id)), userId, title, description, status, now, now⟩
    .ok (t, { d with tasks := d.tasks ++ [t] })
  | _, _ => .error .constraint

/-- Changes a task. -/
def updateTask (d : Database) (id : Int) (title description : Option String)
    (status : Option String) (now : Instant) : Except Failure (Task × Database) :=
  match d.task? id with
  | none => .error (.noSuchTask id)
  | some t =>
    match title, status with
    | some title, some status =>
      let t := { t with title, description, status, updatedAt := now }
      .ok (t, { d with tasks := d.tasks.map fun v => if v.id = id then t else v })
    | _, _ => .error .constraint

/-- Removes a task. -/
def deleteTask (d : Database) (id : Int) : Database :=
  { d with tasks := d.tasks.filter (·.id ≠ id) }

/-- Removes all tasks of a user, and tells how many there were. -/
def deleteTasksOf (d : Database) (user : Int) : Nat × Database :=
  (d.tasks.countP (·.userId = user), { d with tasks := d.tasks.filter (·.userId ≠ user) })

end Database

end EventRelay
