import EventRelay.Service.Announce

/-!
# Users

Creating, changing and deleting users.  Each change is committed together with one event that
tells of it.
-/

namespace EventRelay.Service

/-- Announces a change of a user. -/
def announceUser (topic : String) (kind : ChangeKind) (u : User) : Work Unit := do
  let now ← Work.now
  let event : UserEvent := ⟨kind.tag, .ofInstant now, u.id, some u.email⟩
  let _ ← announce ("user." ++ kind.word) topic (.user event) (toString u.id)

/-- Creates a user under an address that is free. -/
def createUser (topic : String) (email firstName lastName : Option String) : Work User := do
  let u ← timed "user" .created do
    match ← Work.userByEmail email with
    | some u => throw (.emailTaken u.email)
    | none =>
      let now ← Work.now
      let u ← Work.userAdd email firstName lastName now
      announceUser topic .created u
      Work.commit
      return u
  Work.count (.userOperations ChangeKind.created.word) 1
  return u

/-- Changes the names of a user. -/
def updateUser (topic : String) (id : Int) (firstName lastName : Option String) : Work User := do
  let u ← timed "user" .updated do
    match ← Work.userGet id with
    | none => throw (.noSuchUser id)
    | some _ =>
      let now ← Work.now
      let u ← Work.userUpdate id firstName lastName now
      announceUser topic .updated u
      Work.commit
      return u
  Work.count (.userOperations ChangeKind.updated.word) 1
  return u

/-- Deletes a user. -/
def deleteUser (topic : String) (id : Int) : Work Unit := do
  timed "user" .deleted do
    match ← Work.userGet id with
    | none => throw (.noSuchUser id)
    | some u =>
      Work.userDelete id
      announceUser topic .deleted u
      Work.commit
  Work.count (.userOperations ChangeKind.deleted.word) 1

/-- The users of every development database: address, first and last name. -/
def sampleUsers : List (String × String × String) :=
  [("alice@example.com", "Alice", "Martin"), ("bob@example.com", "Bob", "Keller")]

end EventRelay.Service
