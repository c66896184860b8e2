import EventRelay.Service.Announce

/-!
# Tasks

Creating, changing and deleting tasks.  Each change is committed together with one event that
tells of it.  Before a task is created its owner's existence is checked; that check takes time
and belongs to the caller, who hands its answer to `createTask`.
-/

namespace EventRelay.Service

/-- Announces a change of a task. -/
def announceTask (topic : String) (kind : ChangeKind) (t : Task) : Work Unit := do
  let now ← Work.now
  let event : TaskEvent :=
    ⟨kind.tag, .ofInstant now, t.id, t.userId, some t.title, t.description, some t.status⟩
  let _ ← announce ("task." ++ kind.word) topic (.task event) (toString t.id)

/-- Creates a task for an owner about whose existence the given answer was received. -/
def createTask (topic : String) (owner : Except Failure Unit) (userId : Int)
    (title description : Option String) : Work Task := do
  let t ← timed "task" .created do
    match owner with
    | .error e => throw e
    | .ok () =>
      let now ← Work.now
      let t ← Work.taskAdd userId title description TaskStatus.todo.word now
      announceTask topic .created t
      Work.commit
      return t
  Work.count (.taskOperations ChangeKind.created.word) 1
  return t

/-- Changes a task. -/
def updateTask (topic : String) (id : Int) (title description : Option String)
    (status : TaskStatus) : Work Task := do
  let t ← timed "task" .updated do
    match ← Work.taskGet id with
    | none => throw (.noSuchTask id)
    | some _ =>
      let now ← Work.now
      let t ← Work.taskUpdate id title description status.word now
      announceTask topic .updated t
      Work.commit
      return t
  Work.count (.taskOperations ChangeKind.updated.word) 1
  return t

/-- Deletes a task. -/
def deleteTask (topic : String) (id : Int) : Work Unit := do
  timed "task" .deleted do
    match ← Work.taskGet id with
    | none => throw (.noSuchTask id)
    | some t =>
      Work.taskDelete id
      announceTask topic .deleted t
      Work.commit
  Work.count (.taskOperations ChangeKind.deleted.word) 1

end EventRelay.Service
