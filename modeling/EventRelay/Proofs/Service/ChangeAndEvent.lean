import EventRelay.Proofs.Event.Wire
import EventRelay.Proofs.Service.Calls
import EventRelay.Proofs.Store.Rows

/-!
# A change and its event are one

Calls of the services one after another, each in a unit of work of its own.  A call that returns
has stored one change of one entity, one row that tells of it and nothing else; a call that raises
has stored nothing.  So who reads the rows in the order of their insertion, puts in what was created
or changed and takes out what was deleted, arrives at what the tables say.

* `Served`: what a call leaves behind, told of the tables.
* `served`: every call does.
* `Image`, `replay`: what the tables say, and what the rows say.
* `changes_announced`: both, over any run of calls.

An event has a written form as long as the clock shows a date and identifiers have 64 bits, as their
columns do; `Visit.IsSound` asks for that.
-/

namespace EventRelay

/-! ## Tables -/

/-- Identifiers are distinct. -/
structure Database.Keyed (d : Database) : Prop where
  users : (d.users.map (·.id)).Nodup
  tasks : (d.tasks.map (·.id)).Nodup

/-- Identifiers have 64 bits, as their columns do. -/
structure Database.HasWords (d : Database) : Prop where
  users : ∀ u ∈ d.users, Scalar.fitsWord u.id = true
  tasks : ∀ t ∈ d.tasks, Scalar.fitsWord t.id = true ∧ Scalar.fitsWord t.userId = true

/-- The identifiers of an entity have 64 bits. -/
def Entity.HasWords : Entity → Prop
  | .user u => Scalar.fitsWord u.id = true
  | .task t => Scalar.fitsWord t.id = true ∧ Scalar.fitsWord t.userId = true

/-- The tables have changed by one row of one entity. -/
inductive Alters (kind : ChangeKind) : Entity → Database → Database → Prop where
  | user {u : User} {d : Database} {users : List User}
      (h : RowChange User.id kind u d.users users) : Alters kind (.user u) d { d with users }
  | task {t : Task} {d : Database} {tasks : List Task}
      (h : RowChange Task.id kind t d.tasks tasks) : Alters kind (.task t) d { d with tasks }

/-- A user who is found is in the table, under the identifier. -/
theorem mem_of_user? {d : Database} {id : Int} {u : User} (h : d.user? id = some u) :
    u ∈ d.users ∧ u.id = id := by
  have hid := List.find?_some h
  exact ⟨List.mem_of_find?_eq_some h, by simpa using hid⟩

/-- A task that is found is in the table, under the identifier. -/
theorem mem_of_task? {d : Database} {id : Int} {t : Task} (h : d.task? id = some t) :
    t ∈ d.tasks ∧ t.id = id := by
  have hid := List.find?_some h
  exact ⟨List.mem_of_find?_eq_some h, by simpa using hid⟩

section operations

variable {d d' : Database} {now : Instant}

/-- A user who is added is the last one, with a new identifier and an address of their own. -/
theorem eq_of_addUser {email firstName lastName : Option String} {u : User}
    (h : d.addUser email firstName lastName now = .ok (u, d')) :
    ∃ address, email = some address ∧ (∀ v ∈ d.users, v.email ≠ address) ∧
      u = ⟨nextId (d.users.map (·.id)), address, firstName, lastName, now, now⟩ ∧
      d' = { d with users := d.users ++ [u] } := by
  unfold Database.addUser at h
  cases email with
  | none => cases h
  | some address =>
    dsimp only at h
    split at h
    · cases h
    · rename_i hfree
      cases h
      refine ⟨address, rfl, fun v hv heq => hfree ?_, rfl, rfl⟩
      exact List.any_eq_true.mpr ⟨v, hv, decide_eq_true heq⟩

/-- A user who is changed keeps identifier, address and time of creation. -/
theorem eq_of_updateUser {id : Int} {firstName lastName : Option String} {u : User}
    (h : d.updateUser id firstName lastName now = .ok (u, d')) :
    ∃ old ∈ d.users, id = old.id ∧
      u = ⟨old.id, old.email, firstName, lastName, old.createdAt, now⟩ ∧
      d' = { d with users := d.users.map fun v => if v.id = old.id then u else v } := by
  unfold Database.updateUser at h
  split at h
  · cases h
  · rename_i old hold
    cases h
    obtain ⟨hmem, rfl⟩ := mem_of_user? hold
    exact ⟨old, hmem, rfl, rfl, rfl⟩

/-- A task that is added is the last one, with a new identifier and a title. -/
theorem eq_of_addTask {userId : Int} {title description : Option String} {status : String}
    {t : Task} (h : d.addTask userId title description status now = .ok (t, d')) :
    ∃ name, title = some name ∧
      t = ⟨nextId (d.tasks.map (·.id)), userId, name, description, status, now, now⟩ ∧
      d' = { d with tasks := d.tasks ++ [t] } := by
  unfold Database.addTask at h
  cases title with
  | none => cases h
  | some name =>
    cases h
    exact ⟨name, rfl, rfl, rfl⟩

/-- A task that is changed keeps identifier, owner and time of creation. -/
theorem eq_of_updateTask {id : Int} {title description : Option String} {status : String}
    {t : Task} (h : d.updateTask id title description status now = .ok (t, d')) :
    ∃ old ∈ d.tasks, id = old.id ∧ ∃ name, title = some name ∧
      t = ⟨old.id, old.userId, name, description, status, old.createdAt, now⟩ ∧
      d' = { d with tasks := d.tasks.map fun v => if v.id = old.id then t else v } := by
  unfold Database.updateTask at h
  split at h
  · cases h
  · rename_i old hold
    cases title with
    | none => cases h
    | some name =>
      cases h
      obtain ⟨hmem, rfl⟩ := mem_of_task? hold
      exact ⟨old, hmem, rfl, name, rfl, rfl, rfl⟩

end operations

/-- The next identifier is nobody's. -/
theorem free_nextId {α : Type} {key : α → Int} {rows : List α} {b : α} (hb : b ∈ rows) :
    key b ≠ nextId (rows.map key) := (lt_nextId (List.mem_map_of_mem hb)).ne

/-- The counters of changes. -/
def Counter.CountsChanges : Counter → Prop
  | .userOperations _ => True
  | .taskOperations _ => True
  | _ => False

/-- A counter grows, and no other. -/
theorem Tally.count_grow (t : Tally) (c k : Counter) (n : Nat) :
    (t.grow c n).count k = t.count k + if k = c then n else 0 := by
  induction t with
  | nil =>
    unfold grow count
    by_cases h : c = k
    · rw [if_pos h, if_pos h.symm]
      simp
    · rw [if_neg h, if_neg (Ne.symm h)]
      rfl
  | cons entry rest ih =>
    obtain ⟨d, m⟩ := entry
    unfold grow count
    by_cases hd : d = c
    · subst hd
      rw [if_pos rfl]
      by_cases hk : d = k
      · simp [hk]
      · simp [hk, Ne.symm hk]
    · rw [if_neg hd]
      by_cases hk : d = k
      · subst hk
        simp [hd]
      · simp [hk, ih]

namespace Service

/-! ## What a call is to do -/

/-- What a call asks for: the kind of its change, and what its arguments say of the entity. -/
inductive Asks (d : Database) : Call → ChangeKind → Entity → Prop where
  | createUser {u : User} (haddress : ∀ v ∈ d.users, v.email ≠ u.email) :
      Asks d (.createUser u.email u.firstName u.lastName) .created (.user u)
  | updateUser {old u : User} (hold : old ∈ d.users)
      (hkept : u.id = old.id ∧ u.email = old.email ∧ u.createdAt = old.createdAt) :
      Asks d (.updateUser u.id u.firstName u.lastName) .updated (.user u)
  | deleteUser {u : User} (hu : u ∈ d.users) : Asks d (.deleteUser u.id) .deleted (.user u)
  | createTask {t : Task} (hstatus : t.status = TaskStatus.todo.word) :
      Asks d (.createTask (.ok ()) t.userId t.title t.description) .created (.task t)
  | updateTask {old t : Task} {status : TaskStatus} (hold : old ∈ d.tasks)
      (hkept : t.id = old.id ∧ t.userId = old.userId ∧ t.createdAt = old.createdAt)
      (hstatus : t.status = status.word) :
      Asks d (.updateTask t.id t.title t.description status) .updated (.task t)
  | deleteTask {t : Task} (ht : t ∈ d.tasks) : Asks d (.deleteTask t.id) .deleted (.task t)

variable {c : Call} {kind : ChangeKind} {e : Entity} {d d' : Database}

/-- The operation that a call performs is the one that it asks for. -/
theorem asks_of_performs (h : Performs c kind e d d') : Asks d c kind e := by
  cases h with
  | createUser h =>
    obtain ⟨address, rfl, haddress, rfl, -⟩ := eq_of_addUser h
    exact .createUser (u := ⟨_, _, _, _, _, _⟩) haddress
  | @updateUser _ firstName lastName now _ _ _ _ h =>
    obtain ⟨old, hold, rfl, rfl, -⟩ := eq_of_updateUser h
    exact .updateUser (u := ⟨old.id, old.email, firstName, lastName, old.createdAt, now⟩) hold
      ⟨rfl, rfl, rfl⟩
  | deleteUser _ h =>
    obtain ⟨hmem, rfl⟩ := mem_of_user? h
    exact .deleteUser hmem
  | createTask _ h =>
    obtain ⟨name, rfl, rfl, -⟩ := eq_of_addTask h
    exact .createTask (t := ⟨_, _, _, _, _, _, _⟩) rfl
  | @updateTask _ _ description status now _ _ _ _ h =>
    obtain ⟨old, hold, rfl, title, rfl, rfl, -⟩ := eq_of_updateTask h
    exact .updateTask (t := ⟨old.id, old.userId, title, description, status.word,
      old.createdAt, now⟩) hold ⟨rfl, rfl, rfl⟩ rfl
  | deleteTask _ h =>
    obtain ⟨hmem, rfl⟩ := mem_of_task? h
    exact .deleteTask hmem

/-- The operation of a call alters one row. -/
theorem alters_of_performs (hkeyed : d.Keyed) (h : Performs c kind e d d') :
    Alters kind e d d' := by
  cases h with
  | createUser h =>
    obtain ⟨address, -, -, rfl, rfl⟩ := eq_of_addUser h
    exact .user (.created fun v hv => free_nextId hv)
  | updateUser _ h =>
    obtain ⟨old, hold, -, rfl, rfl⟩ := eq_of_updateUser h
    exact .user (rowChange_replace hkeyed.users hold rfl)
  | deleteUser _ h =>
    obtain ⟨hmem, rfl⟩ := mem_of_user? h
    exact .user (rowChange_filter hkeyed.users hmem)
  | createTask _ h =>
    obtain ⟨name, -, rfl, rfl⟩ := eq_of_addTask h
    exact .task (.created fun v hv => free_nextId hv)
  | updateTask _ h =>
    obtain ⟨old, hold, -, name, -, rfl, rfl⟩ := eq_of_updateTask h
    exact .task (rowChange_replace hkeyed.tasks hold rfl)
  | deleteTask _ h =>
    obtain ⟨hmem, rfl⟩ := mem_of_task? h
    exact .task (rowChange_filter hkeyed.tasks hmem)

/-! ## What a row says -/

/-- An event that a row carries. -/
inductive Event where
  /-- An event about a user. -/
  | user (event : UserEvent)
  /-- An event about a task. -/
  | task (event : TaskEvent)

/-- The event tells of a change of an entity: its kind, its identifier and its fields. -/
inductive Tells (kind : ChangeKind) : Entity → Event → Prop where
  | user {u : User} {event : UserEvent} (hkind : event.kind? = some kind)
      (hid : event.userId = u.id) (hemail : event.email = some u.email) :
      Tells kind (.user u) (.user event)
  | task {t : Task} {event : TaskEvent} (hkind : event.kind? = some kind)
      (hid : event.taskId = t.id) (howner : event.userId = t.userId)
      (htitle : event.title = some t.title) (hdescription : event.description = t.description)
      (hstatus : event.status = some t.status) : Tells kind (.task t) (.task event)

/-- Whether the type of an event names a change of an entity that is so called. -/
def isAbout (noun eventType : String) : Bool :=
  [ChangeKind.created, .updated, .deleted].any fun kind => noun ++ kind.word == eventType

/-- The event that a row carries, of the entity that the type of the row names; it is read at the
given time. -/
def eventOf? (now : Timestamp) (r : OutboxRow) : Option Event :=
  if isAbout "user." r.eventType then
    (UserEvent.ofWire now r.payload).toOption.map .user
  else if isAbout "task." r.eventType then
    (TaskEvent.ofWire now r.payload).toOption.map .task
  else none

/-- A row about a user is read as an event about a user. -/
theorem eventOf?_user {now : Timestamp} {r : OutboxRow}
    (h : r.eventType = "user." ++ kind.word) :
    eventOf? now r = (UserEvent.ofWire now r.payload).toOption.map .user := by
  have habout : isAbout "user." ("user." ++ kind.word) = true := by cases kind <;> decide
  unfold eventOf?
  rw [h, if_pos habout]

/-- A row about a task is read as an event about a task. -/
theorem eventOf?_task {now : Timestamp} {r : OutboxRow}
    (h : r.eventType = "task." ++ kind.word) :
    eventOf? now r = (TaskEvent.ofWire now r.payload).toOption.map .task := by
  have hother : ¬ isAbout "user." ("task." ++ kind.word) = true := by cases kind <;> decide
  have habout : isAbout "task." ("task." ++ kind.word) = true := by cases kind <;> decide
  unfold eventOf?
  rw [h, if_neg hother, if_pos habout]

/-- A row waits to be sent on the topic of an entity, in its order among the rows of that entity,
and whenever it is read it tells of the change. -/
structure Announces (topics : Topics) (kind : ChangeKind) (e : Entity) (r : OutboxRow) : Prop where
  status : r.status = .pending
  retryCount : r.retryCount = 0
  eventType : r.eventType = e.eventType kind
  topic : r.topic = topics.of e
  key : r.key = some (toString e.id)
  payload : ∀ now, ∃ event, eventOf? now r = some event ∧ Tells kind e event

/-- The row that is appended for a change announces it. -/
theorem announces_announcement {topics : Topics} {now : Instant} {t : Outbox}
    (hdated : now.wall.isDated = true) (he : Entity.HasWords e) :
    Announces topics kind e (announcement topics kind e now t) where
  status := rfl
  retryCount := rfl
  eventType := rfl
  topic := rfl
  key := rfl
  payload read := by
    obtain ⟨htimestamp, hyear⟩ := Timestamp.isProper_ofInstant hdated
    cases e with
    | user u =>
      refine ⟨.user ⟨kind.tag, .ofInstant now, u.id, some u.email⟩, ?_,
        .user kind.ofEventType?_tag rfl rfl⟩
      have hread := UserEvent.ofWire_wire
        (e := ⟨kind.tag, .ofInstant now, u.id, some u.email⟩) ⟨htimestamp, hyear, he⟩ read
      refine (eventOf?_user rfl).trans ?_
      change (UserEvent.ofWire read (UserEvent.wire _)).toOption.map _ = _
      rw [hread]
      rfl
    | task x =>
      refine ⟨.task ⟨kind.tag, .ofInstant now, x.id, x.userId, some x.title, x.description,
        some x.status⟩, ?_, .task kind.ofEventType?_tag rfl rfl rfl rfl rfl⟩
      have hread := TaskEvent.ofWire_wire (e := ⟨kind.tag, .ofInstant now, x.id, x.userId,
        some x.title, x.description, some x.status⟩) ⟨htimestamp, hyear, he.1, he.2⟩ read
      refine (eventOf?_task rfl).trans ?_
      change (TaskEvent.ofWire read (TaskEvent.wire _)).toOption.map _ = _
      rw [hread]
      rfl

/-! ## What a call leaves behind -/

/-- What a call leaves behind.  One that raised has stored nothing and was not counted.  One that
returned has stored the one change that it asks for and the one row that tells of it, was counted
once, and returns the entity unless it is gone. -/
inductive Served (topics : Topics) (c : Call) (s : Session) :
    Except Failure (Option Entity) × Session → Prop where
  | raised (e : Failure) (t : Session) (stored : t.stored = s.stored)
      (tally : ∀ k : Counter, k.CountsChanges → t.tally.count k = s.tally.count k) :
      Served topics c s (.error e, t)
  | returned (kind : ChangeKind) (e : Entity) (d : Database) (row : OutboxRow) (t : Session)
      (asks : Asks s.stored c kind e) (alters : Alters kind e s.stored d)
      (announces : Announces topics kind e row)
      (stored : t.stored = { d with outbox := d.outbox ++ [row] })
      (tally : ∀ k : Counter, k.CountsChanges →
        t.tally.count k = s.tally.count k + if k = e.counter kind then 1 else 0) :
      Served topics c s (.ok (if kind = .deleted then none else some e), t)

/-- That a change was timed is not counted among the changes. -/
theorem count_timedTally {entity : String} {t : Tally} {k : Counter} (hk : k.CountsChanges) :
    (timedTally entity kind t).count k = t.count k := by
  have hother : k ≠ .timedOperations entity kind.word := by
    rintro rfl
    exact hk
  unfold timedTally
  rw [Tally.count_grow, if_neg hother, Nat.add_zero]

/-- The entity is in the tables before its change or after it. -/
theorem hasWords_of_alters (h : Alters kind e d d') (hd : d.HasWords) (hd' : d'.HasWords) :
    e.HasWords := by
  cases h with
  | user h => exact h.mem.elim (hd.users _) (hd'.users _)
  | task h => exact h.mem.elim (hd.tasks _) (hd'.tasks _)

/-- Identifiers are still distinct after a change. -/
theorem keyed_of_alters (h : Alters kind e d d') (hd : d.Keyed) : d'.Keyed := by
  cases h with
  | user h => exact ⟨h.nodup hd.users, hd.tasks⟩
  | task h => exact ⟨hd.users, h.nodup hd.tasks⟩

/-! ## One call after another -/

/-- A call, and the session that its unit of work finds. -/
structure Visit where
  /-- The call. -/
  call : Call
  /-- The session. -/
  session : Session

/-- How a call ends, and what it leaves behind. -/
def Visit.outcome (topics : Topics) (v : Visit) : Except Failure (Option Entity) × Session :=
  (v.call.unit topics).run v.session

/-- Operations of the database are done or raise; the clock shows a date; identifiers have 64
bits. -/
structure Visit.IsSound (topics : Topics) (v : Visit) : Prop where
  honest : v.session.script.IsHonest
  begins : v.session.now.wall.isDated = true
  ends : (v.outcome topics).2.now.wall.isDated = true
  words : (v.outcome topics).2.stored.HasWords

/-- Calls one after another: each finds the tables and the counters as the one before has left
them, and anything else as it may be. -/
inductive Visited (topics : Topics) : Database → Tally → List Visit → Database → Tally → Prop where
  | none (d : Database) (t : Tally) : Visited topics d t [] d t
  | one {v : Visit} {visits : List Visit} {d : Database} {t : Tally}
      (h : Visited topics (v.outcome topics).2.stored (v.outcome topics).2.tally visits d t) :
      Visited topics v.session.stored v.session.tally (v :: visits) d t

/-- Every sound visit is served: nothing is stored, or the change with the row that tells of it. -/
theorem served {topics : Topics} {v : Visit} (hsound : v.IsSound topics)
    (hkeyed : v.session.stored.Keyed) (hwords : v.session.stored.HasWords) :
    Served topics v.call v.session (v.outcome topics) := by
  have h : Transacted topics v.call v.session (v.outcome topics) := transacted hsound.honest v.call
  have hends := hsound.ends
  have hafter := hsound.words
  generalize v.outcome topics = outcome at h hends hafter
  cases h with
  | raised e t entity kind hstored htally =>
    refine .raised e t hstored fun k hk => ?_
    rw [htally, count_timedTally hk]
  | returned kind e entity t hstores htally =>
    obtain ⟨d, now, hperforms, hbegin, hend, hstored⟩ := hstores
    have halters := alters_of_performs hkeyed hperforms
    have hfits : e.HasWords := by
      refine hasWords_of_alters halters hwords ?_
      rw [hstored] at hafter
      exact ⟨hafter.users, hafter.tasks⟩
    refine .returned kind e d _ t (asks_of_performs hperforms) halters
      (announces_announcement (Timestamp.isDated_wall_between hsound.begins hends hbegin hend)
        hfits) hstored fun k hk => ?_
    rw [htally, Tally.count_grow, count_timedTally hk]

/-! ## What the rows say -/

/-- What is known of a task. -/
structure TaskFacts where
  /-- Its owner. -/
  userId : Int
  /-- Its title. -/
  title : Option String
  /-- Its description. -/
  description : Option String
  /-- Its status. -/
  status : Option String

/-- What is known of each user and of each task. -/
structure Image where
  /-- The address of each user that is there. -/
  users : Int → Option (Option String)
  /-- The fields of each task that is there. -/
  tasks : Int → Option TaskFacts

/-- Nobody and nothing is there. -/
def Image.empty : Image := ⟨fun _ => none, fun _ => none⟩

/-- What the tables say. -/
def Image.of (d : Database) : Image where
  users := imageOf User.id (fun u => some u.email) d.users
  tasks := imageOf Task.id (fun t => ⟨t.userId, some t.title, t.description, some t.status⟩) d.tasks

/-- What is known after an event: what was created or changed is put in under its identifier, and
what was deleted is taken out. -/
def Image.apply (m : Image) : Event → Image
  | .user e =>
    match e.kind? with
    | some kind => { m with users := putChange kind e.userId e.email m.users }
    | none => m
  | .task e =>
    match e.kind? with
    | some kind =>
      let facts : TaskFacts := ⟨e.userId, e.title, e.description, e.status⟩
      { m with tasks := putChange kind e.taskId facts m.tasks }
    | none => m

/-- What is known after rows were read one after another. -/
def replay (now : Timestamp) (m : Image) (rows : List OutboxRow) : Image :=
  rows.foldl (fun m r => ((eventOf? now r).map m.apply).getD m) m

/-- What is known after the event is what the tables say after the change. -/
theorem apply_of_alters {event : Event} (h : Alters kind e d d') (hkeyed : d.Keyed)
    (htells : Tells kind e event) : (Image.of d).apply event = Image.of d' := by
  cases htells with
  | user hkind hid hemail =>
    cases h with
    | user h =>
      unfold Image.apply Image.of
      simp only [hkind, hid, hemail, h.image hkeyed.users]
  | task hkind hid howner htitle hdescription hstatus =>
    cases h with
    | task h =>
      unfold Image.apply Image.of
      simp only [hkind, hid, howner, htitle, hdescription, hstatus, h.image hkeyed.tasks]

/-- The change itself leaves the outbox. -/
theorem outbox_of_alters (h : Alters kind e d d') : d'.outbox = d.outbox := by
  cases h <;> rfl

/-- One call: the rows that it adds say what it does to the tables. -/
theorem replay_of_served {topics : Topics} {c : Call} {s : Session}
    {outcome : Except Failure (Option Entity) × Session} (hkeyed : s.stored.Keyed)
    (h : Served topics c s outcome) :
    outcome.2.stored.Keyed ∧ ∃ rows, outcome.2.stored.outbox = s.stored.outbox ++ rows ∧
      ∀ now, replay now (.of s.stored) rows = .of outcome.2.stored := by
  cases h with
  | raised e t hstored =>
    dsimp only
    rw [hstored]
    exact ⟨hkeyed, [], (List.append_nil _).symm, fun _ => rfl⟩
  | returned kind e d row t _ halters hannounces hstored =>
    dsimp only
    rw [hstored]
    refine ⟨⟨(keyed_of_alters halters hkeyed).users, (keyed_of_alters halters hkeyed).tasks⟩,
      [row], ?_, fun now => ?_⟩
    · rw [← outbox_of_alters halters]
    · obtain ⟨event, hevent, htells⟩ := hannounces.payload now
      change ((eventOf? now row).map (Image.of s.stored).apply).getD _ = _
      rw [hevent]
      exact (apply_of_alters halters hkeyed htells).trans rfl

/-- Rows are read one after another. -/
theorem replay_append (now : Timestamp) (m : Image) (rows more : List OutboxRow) :
    replay now m (rows ++ more) = replay now (replay now m rows) more := List.foldl_append

/-- Nothing is known of empty tables. -/
theorem image_of_empty (husers : d.users = []) (htasks : d.tasks = []) :
    Image.of d = .empty := by
  unfold Image.of
  rw [husers, htasks]
  rfl

/-- The induction is on the calls that are left: each one is served, and the next finds identifiers
that are distinct and have 64 bits. -/
theorem served_of_visited {topics : Topics} {t t' : Tally} {visits : List Visit}
    (hrun : Visited topics d t visits d' t') (hsound : ∀ v ∈ visits, v.IsSound topics)
    (hkeyed : d.Keyed) (hwords : d.HasWords) :
    (∀ v ∈ visits, Served topics v.call v.session (v.outcome topics)) ∧ d'.Keyed ∧
      ∃ rows, d'.outbox = d.outbox ++ rows ∧ ∀ now, replay now (.of d) rows = .of d' := by
  induction hrun with
  | none d t =>
    exact ⟨fun v hv => absurd hv List.not_mem_nil, hkeyed, [], (List.append_nil _).symm,
      fun now => rfl⟩
  | @one v visits d' t' hrun ih =>
    have hv := hsound v List.mem_cons_self
    have hserved := served hv hkeyed hwords
    obtain ⟨hkeyed', rows, hrows, hreplay⟩ := replay_of_served hkeyed hserved
    obtain ⟨hothers, hkeyedEnd, more, hmore, hreplay'⟩ :=
      ih (fun w hw => hsound w (List.mem_cons_of_mem _ hw)) hkeyed' hv.words
    refine ⟨?_, hkeyedEnd, rows ++ more, ?_, fun now => ?_⟩
    · rintro w hw
      rcases List.mem_cons.mp hw with rfl | hw
      · exact hserved
      · exact hothers w hw
    · rw [hmore, hrows, List.append_assoc]
    · rw [replay_append, hreplay now, hreplay' now]

/-- Calls of the services one after another, with any arguments and whatever raises in them.  Each
call leaves behind what `Served` tells.  The rows that were appended, read in their order, say
exactly what the tables say: from what these said at first, and from nothing if they were empty. -/
theorem changes_announced {topics : Topics} {d d' : Database} {t t' : Tally} {visits : List Visit}
    (hrun : Visited topics d t visits d' t') (hsound : ∀ v ∈ visits, v.IsSound topics)
    (hkeyed : d.Keyed) (hwords : d.HasWords) :
    (∀ v ∈ visits, Served topics v.call v.session (v.outcome topics)) ∧ d'.Keyed ∧
      ∃ rows, d'.outbox = d.outbox ++ rows ∧ ∀ now, replay now (.of d) rows = .of d' ∧
        (d.users = [] → d.tasks = [] → replay now .empty rows = .of d') := by
  obtain ⟨hserved, hkeyed', rows, hrows, hreplay⟩ := served_of_visited hrun hsound hkeyed hwords
  refine ⟨hserved, hkeyed', rows, hrows, fun now => ⟨hreplay now, fun husers htasks => ?_⟩⟩
  rw [← image_of_empty husers htasks]
  exact hreplay now

/-! ## A run -/

/-- The calls of a run, each in the session that the one before has left, under a script of its
own. -/
def journey (topics : Topics) : Session → List (Call × DbScript) → List Visit
  | _, [] => []
  | s, (call, script) :: rest =>
    let v : Visit := ⟨call, { s with script }⟩
    v :: journey topics (v.outcome topics).2 rest

/-- The session that a run leaves. -/
def arrival (topics : Topics) : Session → List (Call × DbScript) → Session
  | s, [] => s
  | s, (call, script) :: rest =>
    arrival topics (Visit.outcome topics ⟨call, { s with script }⟩).2 rest

/-- The calls of a run find what the ones before have left. -/
theorem visited_journey (topics : Topics) (s : Session) (calls : List (Call × DbScript)) :
    Visited topics s.stored s.tally (journey topics s calls) (arrival topics s calls).stored
      (arrival topics s calls).tally := by
  induction calls generalizing s with
  | nil => exact .none s.stored s.tally
  | cons call rest ih => exact .one (v := ⟨call.1, { s with script := call.2 }⟩) (ih _)

/-- A session over empty tables. -/
def newDesk : Session where
  now := .origin
  stored := .empty
  staged := .empty
  begun := false
  script := .none
  cache := .fresh ⟨0, 1, ⟨0, 0⟩, false⟩ ⟨"", 1, 0⟩
  tally := []
  notices := []

/-- A script by which the next commit raises. -/
def failingCommit : DbScript
  | .commit => [⟨0, .raise .constraint⟩]
  | _ => []

/-- A user is created, changed, deleted and created anew under the same identifier; a task is
created and changed, and its deletion fails when it is to be stored. -/
def busyRun : List (Call × DbScript) :=
  [(.createUser "ann@example.com" "Ann" none, .none),
    (.createTask (.ok ()) 1 "Write" none, .none),
    (.updateUser 1 "Anna" "Berg", .none),
    (.deleteUser 1, .none),
    (.updateTask 1 "Write" "in full" .done, .none),
    (.createUser "bob@example.com" none none, .none),
    (.createUser "bob@example.com" "Bob" none, .none),
    (.deleteTask 1, failingCommit)]

/-- Whether the clock shows a date before and after a call and identifiers have 64 bits. -/
def Visit.isInRange (topics : Topics) (v : Visit) : Bool :=
  let after := (v.outcome topics).2
  v.session.now.wall.isDated && after.now.wall.isDated &&
    after.stored.users.all (fun u => Scalar.fitsWord u.id) &&
    after.stored.tasks.all fun t => Scalar.fitsWord t.id && Scalar.fitsWord t.userId

/-- A visit with dates and identifiers in range is sound, under an honest script. -/
theorem isSound_of_isInRange {topics : Topics} {v : Visit} (hscript : v.session.script.IsHonest)
    (h : v.isInRange topics = true) : v.IsSound topics := by
  unfold Visit.isInRange at h
  simp only [Bool.and_eq_true, List.all_eq_true] at h
  obtain ⟨⟨⟨hbegins, hends⟩, husers⟩, htasks⟩ := h
  exact ⟨hscript, hbegins, hends, husers, htasks⟩

/-- Every visit of a run has the script of its call. -/
theorem honest_of_mem_journey {topics : Topics} {s : Session} {calls : List (Call × DbScript)}
    {v : Visit} (hcalls : ∀ call ∈ calls, call.2.IsHonest) (hv : v ∈ journey topics s calls) :
    v.session.script.IsHonest := by
  induction calls generalizing s with
  | nil => cases hv
  | cons call rest ih =>
    rcases List.mem_cons.mp hv with rfl | hv
    · exact hcalls call List.mem_cons_self
    · exact ih (fun c hc => hcalls c (List.mem_cons_of_mem _ hc)) hv

/-- A commit that raises tells no lies. -/
theorem isHonest_failingCommit : failingCommit.IsHonest := by
  intro op o ho
  cases op
  case commit =>
    rw [List.mem_singleton.mp ho]
    exact nofun
  all_goals cases ho

/-- Six of the eight calls return, and the six rows say what the tables say in the end. -/
theorem changes_announced_of_busyRun :
    let topics : Topics := ⟨"users", "tasks"⟩
    let d := (arrival topics newDesk busyRun).stored
    d.users.map (fun u => (u.id, u.email)) = [(1, "bob@example.com")] ∧
      d.tasks.map (fun t => (t.id, t.description, t.status)) = [(1, some "in full", "DONE")] ∧
      (∀ v ∈ journey topics newDesk busyRun,
        Served topics v.call v.session (v.outcome topics)) ∧
      d.outbox.length = 6 ∧ ∀ now, replay now .empty d.outbox = .of d := by
  intro topics d
  have hsound : ∀ v ∈ journey topics newDesk busyRun, v.IsSound topics := by
    have hranges : (journey topics newDesk busyRun).all (Visit.isInRange topics) = true := by
      decide +kernel
    have hscripts : ∀ call ∈ busyRun, call.2.IsHonest := by
      simpa [busyRun, DbScript.IsHonest, DbScript.within_none] using isHonest_failingCommit
    exact fun v hv => isSound_of_isInRange (honest_of_mem_journey hscripts hv)
      (List.all_eq_true.mp hranges v hv)
  obtain ⟨hserved, -, rows, hrows, hreplay⟩ :=
    changes_announced (visited_journey topics newDesk busyRun) hsound
      ⟨List.nodup_nil, List.nodup_nil⟩ ⟨nofun, nofun⟩
  have hall : rows = d.outbox := hrows.symm
  rw [← hall]
  refine ⟨by decide +kernel, by decide +kernel, hserved, ?_, fun now => (hreplay now).2 rfl rfl⟩
  rw [hall]
  decide +kernel

end Service

end EventRelay
