import EventRelay.Proofs.Service.Steps

/-!
# Calls of the services

The six calls by which users and tasks are changed, each in a unit of work of its own.  A call that
returns has stored one change of one entity together with one row of the outbox that tells of it,
and one counter has grown; a call that raises has stored nothing and no counter of changes has
grown.

* `Call.unit`: the unit of work of a call.
* `Performs`: which operation on which table a call comes to.
* `transacted`: what a call leaves behind, whatever its arguments and whatever raises in it.
-/

namespace EventRelay

/-- What an event is about. -/
inductive Entity where
  /-- A user. -/
  | user (row : User)
  /-- A task. -/
  | task (row : Task)

namespace Entity

/-- The identifier. -/
def id : Entity → Int
  | user u => u.id
  | task t => t.id

/-- The type of the event that tells of a change. -/
def eventType (kind : ChangeKind) : Entity → String
  | user _ => "user." ++ kind.word
  | task _ => "task." ++ kind.word

/-- The payload of the event that tells of a change. -/
def wire (kind : ChangeKind) (now : Instant) : Entity → String
  | user u => (⟨kind.tag, .ofInstant now, u.id, some u.email⟩ : UserEvent).wire
  | task t =>
    (⟨kind.tag, .ofInstant now, t.id, t.userId, some t.title, t.description, some t.status⟩ :
      TaskEvent).wire

/-- The counter that counts changes of this kind. -/
def counter (kind : ChangeKind) : Entity → Counter
  | user _ => .userOperations kind.word
  | task _ => .taskOperations kind.word

end Entity

namespace Service

/-- The topics of the two kinds of events. -/
structure Topics where
  /-- Events about users. -/
  users : String
  /-- Events about tasks. -/
  tasks : String

/-- The topic of an event about an entity. -/
def Topics.of (topics : Topics) : Entity → String
  | .user _ => topics.users
  | .task _ => topics.tasks

/-- A call of a service, with its arguments. -/
inductive Call where
  /-- Creates a user. -/
  | createUser (email firstName lastName : Option String)
  /-- Changes a user. -/
  | updateUser (id : Int) (firstName lastName : Option String)
  /-- Deletes a user. -/
  | deleteUser (id : Int)
  /-- Creates a task for an owner about whom the given answer was received. -/
  | createTask (owner : Except Failure Unit) (userId : Int) (title description : Option String)
  /-- Changes a task. -/
  | updateTask (id : Int) (title description : Option String) (status : TaskStatus)
  /-- Deletes a task. -/
  | deleteTask (id : Int)

/-- The unit of work of a call; what was created or changed is returned. -/
def Call.unit (topics : Topics) : Call → Work (Option Entity)
  | .createUser email firstName lastName =>
    (some ∘ Entity.user) <$> Service.createUser topics.users email firstName lastName
  | .updateUser id firstName lastName =>
    (some ∘ Entity.user) <$> Service.updateUser topics.users id firstName lastName
  | .deleteUser id => (fun _ => none) <$> Service.deleteUser topics.users id
  | .createTask owner userId title description =>
    (some ∘ Entity.task) <$> Service.createTask topics.tasks owner userId title description
  | .updateTask id title description status =>
    (some ∘ Entity.task) <$> Service.updateTask topics.tasks id title description status
  | .deleteTask id => (fun _ => none) <$> Service.deleteTask topics.tasks id

/-- The operation on the tables that a call comes to, and the entity that it changes: as it is
afterwards, or as it was last. -/
inductive Performs : Call → ChangeKind → Entity → Database → Database → Prop where
  | createUser {email firstName lastName : Option String} {now : Instant} {u : User}
      {d d' : Database} (h : d.addUser email firstName lastName now = .ok (u, d')) :
      Performs (.createUser email firstName lastName) .created (.user u) d d'
  | updateUser {id : Int} {firstName lastName : Option String} {now : Instant} {u : User}
      {d d' : Database} (hid : Scalar.fitsWord id = true)
      (h : d.updateUser id firstName lastName now = .ok (u, d')) :
      Performs (.updateUser id firstName lastName) .updated (.user u) d d'
  | deleteUser {id : Int} {u : User} {d : Database} (hid : Scalar.fitsWord id = true)
      (h : d.user? id = some u) :
      Performs (.deleteUser id) .deleted (.user u) d (d.deleteUser id)
  | createTask {userId : Int} {title description : Option String} {now : Instant} {t : Task}
      {d d' : Database} (huser : Scalar.fitsWord userId = true)
      (h : d.addTask userId title description TaskStatus.todo.word now = .ok (t, d')) :
      Performs (.createTask (.ok ()) userId title description) .created (.task t) d d'
  | updateTask {id : Int} {title description : Option String} {status : TaskStatus}
      {now : Instant} {t : Task} {d d' : Database} (hid : Scalar.fitsWord id = true)
      (h : d.updateTask id title description status.word now = .ok (t, d')) :
      Performs (.updateTask id title description status) .updated (.task t) d d'
  | deleteTask {id : Int} {t : Task} {d : Database} (hid : Scalar.fitsWord id = true)
      (h : d.task? id = some t) :
      Performs (.deleteTask id) .deleted (.task t) d (d.deleteTask id)

/-- The row that tells of a change, as it is appended to an outbox. -/
def announcement (topics : Topics) (kind : ChangeKind) (e : Entity) (now : Instant)
    (t : Outbox) : OutboxRow :=
  (t.append (e.eventType kind) (topics.of e) (e.wire kind now) (some (toString e.id)) now).1

/-- The row that tells of a change is added to the outbox. -/
def announced (topics : Topics) (kind : ChangeKind) (e : Entity) (now : Instant) (d : Database) :
    Database :=
  { d with outbox := d.outbox ++ [announcement topics kind e now d.outbox] }

/-- What a call has stored: its operation, and the row that tells of it, written at some instant
between the beginning and the end. -/
def Stores (topics : Topics) (c : Call) (kind : ChangeKind) (e : Entity) (s t : Session) : Prop :=
  ∃ d now, Performs c kind e s.stored d ∧ s.now ≤ now ∧ now ≤ t.now ∧
    t.stored = announced topics kind e now d

/-! ## Announcements -/

open Work

variable {o s t : Session} {topics : Topics}

/-- Announces a change of an entity. -/
def announceEntity (topics : Topics) (kind : ChangeKind) (e : Entity) : Work Unit :=
  match e with
  | .user u => announceUser topics.users kind u
  | .task t => announceTask topics.tasks kind t

/-- An announcement stages the row that tells of the change. -/
theorem yields_announceEntity (kind : ChangeKind) (e : Entity) (h : Onward o s) :
    Yields o (announceEntity topics kind e) s fun _ t =>
      Staged o (announced topics kind e s.now s.staged) t := by
  have hadded : Yields o (outboxAdd (e.eventType kind) (topics.of e) (e.wire kind s.now)
      (some (toString e.id)) s.now) s fun _ t =>
        Staged o (announced topics kind e s.now s.staged) t := by
    refine yields_mono (yields_outboxAdd h) ?_
    rintro row t ⟨rfl, ht⟩
    exact ht
  cases e with
  | user u =>
    refine yields_now_bind (yields_bind ?_ fun _ _ ht => ht)
    exact yields_now_bind (yields_map hadded fun _ _ ht => ht)
  | task x =>
    refine yields_now_bind (yields_bind ?_ fun _ _ ht => ht)
    exact yields_now_bind (yields_map hadded fun _ _ ht => ht)

/-- What a change has come to before it is counted: it is stored and announced, and the entity is
returned, unless it was deleted. -/
def Reports {α : Type} (topics : Topics) (c : Call) (kind : ChangeKind) (counter : Counter)
    (f : α → Option Entity) (o : Session) (a : α) (t : Session) : Prop :=
  ∃ e, Stores topics c kind e o t ∧ t.tally = o.tally ∧
    f a = (if kind = .deleted then none else some e) ∧ counter = e.counter kind

/-- The rest of a unit of work after its change: the change is announced, and both are stored. -/
theorem yields_announce {α : Type} {c : Call} {kind : ChangeKind} {e : Entity}
    {f : α → Option Entity} {k : Unit → Work α} {d : Database} (h : Staged o d s)
    (hchange : Performs c kind e o.stored d)
    (hk : ∀ t, Staged s (announced topics kind e s.now d) t → Yields s (k ()) t fun a u =>
      Committed s (announced topics kind e s.now d) u ∧
        f a = (if kind = .deleted then none else some e)) :
    Yields o (announceEntity topics kind e >>= k) s
      (Reports topics c kind (e.counter kind) f o) := by
  have hannounced : Yields s (announceEntity topics kind e) s fun _ t =>
      Staged s (announced topics kind e s.now s.staged) t :=
    yields_announceEntity kind e (.refl h.honest)
  rw [h.staged] at hannounced
  refine yields_since h.toOnward (yields_mono (yields_bind hannounced fun _ => hk) ?_)
  rintro a u ⟨hu, hf⟩
  exact ⟨e, ⟨d, s.now, hchange, h.now, hu.now, hu.stored⟩, hu.tally.trans h.tally, hf, rfl⟩


/-! ## Counting -/

/-- A change is timed whether it is made or not, and counted if it is made. -/
def counted {α : Type} (entity : String) (kind : ChangeKind) (c : Counter) (w : Work α) :
    Work α := do
  let a ← timed entity kind w
  Work.count c 1
  return a

/-- The counters after a change was timed. -/
def timedTally (entity : String) (kind : ChangeKind) (t : Tally) : Tally :=
  t.grow (.timedOperations entity kind.word) 1

/-- What a change comes to once it is timed, and counted if it is made. -/
def afterCall {α : Type} (entity : String) (kind : ChangeKind) (c : Counter) :
    Except Failure α × Session → Except Failure α × Session
  | (.ok a, t) => (.ok a, { t with tally := (timedTally entity kind t.tally).grow c 1 })
  | (.error e, t) => (.error e, { t with tally := timedTally entity kind t.tally })

/-- A change is timed in any case, and counted if it is made. -/
theorem follow_counted {α : Type} (entity : String) (kind : ChangeKind) (c : Counter)
    (w : Work α) (s : Session) :
    (counted entity kind c w).follow s = afterCall entity kind c (w.follow s) := by
  unfold counted timed
  rw [follow_bind, follow_whenDone]
  rcases w.follow s with ⟨_ | a, t⟩
  · rfl
  · rfl

/-! ## Calls -/

/-- What a call that ran alone comes to. -/
inductive Transacted (topics : Topics) (c : Call) (s : Session) :
    Except Failure (Option Entity) × Session → Prop where
  /-- It raised: nothing is stored, and only the time was taken. -/
  | raised (e : Failure) (t : Session) (entity : String) (kind : ChangeKind)
      (stored : t.stored = s.stored) (tally : t.tally = timedTally entity kind s.tally) :
      Transacted topics c s (.error e, t)
  /-- It returned: its change is stored and announced, and one counter has grown. -/
  | returned (kind : ChangeKind) (e : Entity) (entity : String) (t : Session)
      (stores : Stores topics c kind e s t)
      (tally : t.tally = (timedTally entity kind s.tally).grow (e.counter kind) 1) :
      Transacted topics c s (.ok (if kind = .deleted then none else some e), t)

/-- A change that reports well has stored both, or has failed and stored nothing. -/
theorem transacted_of_yields {α : Type} {c : Call} {entity : String} {kind : ChangeKind}
    {counter : Counter} {w : Work α} {f : α → Option Entity}
    (h : Yields (settled s) w (settled s) (Reports topics c kind counter f (settled s))) :
    Transacted topics c s ((f <$> counted entity kind counter w).run s) := by
  have hmap : (f <$> counted entity kind counter w).follow (settled s) =
      (counted entity kind counter w >>= fun a => pure (f a)).follow (settled s) := rfl
  unfold Yields at h
  unfold Work.run
  rw [hmap, follow_bind, follow_counted]
  rcases hw : w.follow (settled s) with ⟨e | a, t⟩
  · rw [hw] at h
    exact .raised e _ entity kind h.stored (congrArg (timedTally entity kind) h.tally)
  · rw [hw] at h
    obtain ⟨e, hstores, htally, hf, rfl⟩ := h
    rw [show afterCall entity kind (e.counter kind) (.ok a, t) = (.ok a, _) from rfl]
    dsimp only
    rw [follow_pure, hf]
    refine .returned kind e entity _ hstores ?_
    change (timedTally entity kind t.tally).grow _ 1 = _
    rw [htally]
    rfl

variable (h : s.script.IsHonest)

include h

/-- What it comes to that a user is created. -/
theorem transacted_createUser (email firstName lastName : Option String) :
    Transacted topics (.createUser email firstName lastName) s
      ((Call.unit topics (.createUser email firstName lastName)).run s) := by
  refine transacted_of_yields ?_
  refine yields_bind (yields_userByEmail (.refl h)) fun found t ⟨ht, _⟩ => ?_
  cases found with
  | some u => exact yields_throw ht.toOnward
  | none =>
    refine yields_now_bind (yields_bind (yields_userAdd ht.toOnward) fun u v ⟨d, hv, hu⟩ => ?_)
    rw [ht.staged] at hu
    refine yields_announce (e := .user u) hv (.createUser hu) fun x hx => ?_
    exact yields_bind (yields_commit hx) fun _ y hy => yields_pure ⟨hy, rfl⟩

/-- What it comes to that the names of a user are changed. -/
theorem transacted_updateUser (id : Int) (firstName lastName : Option String) :
    Transacted topics (.updateUser id firstName lastName) s
      ((Call.unit topics (.updateUser id firstName lastName)).run s) := by
  refine transacted_of_yields ?_
  refine yields_bind (yields_userGet (.refl h)) fun found t ⟨ht, _, hid⟩ => ?_
  cases found with
  | none => exact yields_throw ht.toOnward
  | some old =>
    refine yields_now_bind (yields_bind (yields_userUpdate ht.toOnward) fun u v ⟨d, hv, hu⟩ => ?_)
    rw [ht.staged] at hu
    refine yields_announce (e := .user u) hv (.updateUser hid hu) fun x hx => ?_
    exact yields_bind (yields_commit hx) fun _ y hy => yields_pure ⟨hy, rfl⟩

/-- What it comes to that a user is deleted. -/
theorem transacted_deleteUser (id : Int) :
    Transacted topics (.deleteUser id) s ((Call.unit topics (.deleteUser id)).run s) := by
  refine transacted_of_yields ?_
  refine yields_bind (yields_userGet (.refl h)) fun found t ⟨ht, hfound, hid⟩ => ?_
  cases found with
  | none => exact yields_throw ht.toOnward
  | some u =>
    refine yields_bind (yields_userDelete ht.toOnward) fun _ v hv => ?_
    rw [ht.staged] at hv
    refine yields_announce (e := .user u) hv (.deleteUser hid hfound.symm) fun x hx => ?_
    exact yields_mono (yields_commit hx) fun _ y hy => ⟨hy, rfl⟩

/-- What it comes to that a task is created. -/
theorem transacted_createTask (owner : Except Failure Unit) (userId : Int)
    (title description : Option String) :
    Transacted topics (.createTask owner userId title description) s
      ((Call.unit topics (.createTask owner userId title description)).run s) := by
  refine transacted_of_yields ?_
  cases owner with
  | error e => exact yields_throw (.refl h)
  | ok a =>
    refine yields_now_bind (yields_bind (yields_taskAdd (.refl h)) fun x v ⟨hid, d, hv, hx⟩ => ?_)
    refine yields_announce (e := .task x) hv (.createTask hid hx) fun w hw => ?_
    exact yields_bind (yields_commit hw) fun _ y hy => yields_pure ⟨hy, rfl⟩

/-- What it comes to that a task is changed. -/
theorem transacted_updateTask (id : Int) (title description : Option String)
    (status : TaskStatus) :
    Transacted topics (.updateTask id title description status) s
      ((Call.unit topics (.updateTask id title description status)).run s) := by
  refine transacted_of_yields ?_
  refine yields_bind (yields_taskGet (.refl h)) fun found t ⟨ht, _, hid⟩ => ?_
  cases found with
  | none => exact yields_throw ht.toOnward
  | some old =>
    refine yields_now_bind (yields_bind (yields_taskUpdate ht.toOnward) fun x v ⟨d, hv, hx⟩ => ?_)
    rw [ht.staged] at hx
    refine yields_announce (e := .task x) hv (.updateTask hid hx) fun w hw => ?_
    exact yields_bind (yields_commit hw) fun _ y hy => yields_pure ⟨hy, rfl⟩

/-- What it comes to that a task is deleted. -/
theorem transacted_deleteTask (id : Int) :
    Transacted topics (.deleteTask id) s ((Call.unit topics (.deleteTask id)).run s) := by
  refine transacted_of_yields ?_
  refine yields_bind (yields_taskGet (.refl h)) fun found t ⟨ht, hfound, hid⟩ => ?_
  cases found with
  | none => exact yields_throw ht.toOnward
  | some x =>
    refine yields_bind (yields_taskDelete ht.toOnward) fun _ v hv => ?_
    rw [ht.staged] at hv
    refine yields_announce (e := .task x) hv (.deleteTask hid hfound.symm) fun w hw => ?_
    exact yields_mono (yields_commit hw) fun _ y hy => ⟨hy, rfl⟩

/-- Whatever its arguments, and whatever raises in it: a call that returns has stored its change and
the row that tells of it, and a call that raises has stored nothing. -/
theorem transacted (c : Call) : Transacted topics c s ((c.unit topics).run s) := by
  cases c with
  | createUser email firstName lastName => exact transacted_createUser h email firstName lastName
  | updateUser id firstName lastName => exact transacted_updateUser h id firstName lastName
  | deleteUser id => exact transacted_deleteUser h id
  | createTask owner userId title description =>
    exact transacted_createTask h owner userId title description
  | updateTask id title description status =>
    exact transacted_updateTask h id title description status
  | deleteTask id => exact transacted_deleteTask h id

end Service

end EventRelay
