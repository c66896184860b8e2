import EventRelay.Proofs.Handler.Reaction
import EventRelay.Proofs.Publisher.Seclusion
import EventRelay.Proofs.Service.ChangeAndEvent

/-!
# Runs of the whole deployment

Both services, any number of publishers and the handler of user events over one database and one
broker.  A `Site` is what they share together with the tasks that callers want to create; `Step` is
one thing that happens: a service is called, a check of an owner's existence goes on, publishers do
something, an entry of the user events is handed to the handler.  Steps come in any order, so a run is
any interleaving.

The existence of an owner is checked against the cache of the tasks service in the steps that the
cache itself knows.  The remote side may give any answer and may fail.  The answer is used later, when
the unit of work runs that creates the task, and anything may happen in between.  A unit of work
happens as one and takes no time, but any of its operations may raise.

Any entry of the topic may be handed over at any time and any number of times, so that every way in
which consumers read and retry is covered.

The history is read by no step.  It notes down who was deleted, who was given a task, and whose
deletion was handled.
-/

namespace EventRelay

/-! ## The state of a run -/

/-- Where a check of an owner's existence stands. -/
inductive CheckStage where
  /-- The remote side is asked, for the given time. -/
  | asking (attempt : Nat)
  /-- After so many attempts there is a wait. -/
  | resting (attempt : Nat)
  /-- The check is over. -/
  | answered (result : Except Failure Unit)

/-- A task that a caller wants to create. -/
structure TaskRequest where
  /-- The owner. -/
  user : Int
  /-- The title. -/
  title : Option String
  /-- The description. -/
  description : Option String
  /-- The check of the owner's existence. -/
  stage : CheckStage

/-- Something to be noted down about a user. -/
inductive Incident where
  /-- The user was deleted. -/
  | left (user : Int)
  /-- A task of the user was created. -/
  | gained (user : Int)
  /-- A deletion of the user was handled. -/
  | cleared (user : Int)
deriving DecidableEq

/-- The settings of a deployment. -/
structure Deployment where
  /-- The publishers. -/
  pubs : Set PublisherConfig
  /-- The broker. -/
  broker : Broker
  /-- The topics. -/
  topics : Service.Topics
  /-- Whether the handler accepts free text. -/
  legacy : Bool

/-- All that a deployment works on. -/
structure Site where
  /-- The database, the cache, the streams and the ticks of publishers. -/
  relay : Relay
  /-- The tasks that are wanted. -/
  requests : List TaskRequest
  /-- Bookkeeping: what happened. -/
  history : List Incident

/-- What is noted down of a call that returned. -/
def Service.Call.incidents : Service.Call → List Incident
  | .deleteUser id => [.left id]
  | .createTask _ user _ _ => [.gained user]
  | _ => []

/-- What is noted down of a call, from how it ended. -/
def Service.Call.incidentsAfter {α : Type} (c : Service.Call) : Except Failure α → List Incident
  | .ok _ => c.incidents
  | .error _ => []

/-- What is noted down of a delivery that was processed. -/
def Handler.Reaction.incidents : Handler.Reaction → List Incident
  | .remove user => [.cleared user]
  | _ => []

/-- What is noted down of a delivery, from what became of it. -/
def Handler.Reaction.incidentsAfter (x : Handler.Reaction) :
    Except Failure HandleOutcome → List Incident
  | .ok .processed => x.incidents
  | _ => []

/-- Nothing is noted of a delivery that was not processed. -/
theorem Handler.incidentsAfter_of_ne (x : Handler.Reaction) {r : Except Failure HandleOutcome}
    (h : r ≠ .ok .processed) : x.incidentsAfter r = [] := by
  unfold Handler.Reaction.incidentsAfter
  split
  · exact absurd rfl h
  · rfl

/-- Notes rows down as appended. -/
def Relay.enroll (s : Relay) : List OutboxRow → Relay
  | [] => s
  | row :: rows =>
    Relay.enroll { s with
      births := s.births ++ [row]
      serial := fun id => if id = row.id then s.births.length else s.serial id } rows

namespace Site

/-- The tables as they are stored. -/
def stored (w : Site) : Database := w.relay.desk.stored

/-- The time. -/
def now (w : Site) : Instant := w.relay.now

/-- The existence cache of the tasks service. -/
def cache (w : Site) : Cache := w.relay.desk.cache

/-- Puts a later cache in the place of the present one. -/
def withCache (w : Site) (cache : Cache) : Site :=
  { w with relay := { w.relay with desk := { w.relay.desk with cache } } }

/-- Puts other requests in the place of those there are. -/
def withRequests (w : Site) (requests : List TaskRequest) : Site := { w with requests }

/-- A caller wants a task: the check of its owner starts. -/
def ask (w : Site) (user : Int) (title description : Option String) : Site :=
  let r := w.cache.consult w.now user
  let stage := match r.decision with
    | .answered result => CheckStage.answered result
    | .admitted => .asking 1
  (w.withCache r.cache).withRequests (w.requests ++ [⟨user, title, description, stage⟩])

/-- An attempt to ask for the owner of a request comes to an outcome. -/
def settle (w : Site) (before after : List TaskRequest) (q : TaskRequest) (attempt : Nat)
    (outcome : Except Failure Bool) : Site :=
  let r := w.cache.settle w.now q.user attempt outcome
  let stage := match r.decision with
    | .finished result => CheckStage.answered result
    | .again _ => .resting attempt
  (w.withCache r.cache).withRequests (before ++ { q with stage } :: after)

/-- A request is cancelled while its check waits. -/
def cancel (w : Site) (before after : List TaskRequest) (q : TaskRequest) (cause : Failure) :
    Site :=
  (w.withCache (w.cache.abandon w.now q.user cause).cache).withRequests (before ++ after)

/-- Runs a call of a service. -/
def serve (w : Site) (topics : Service.Topics) (c : Service.Call) (script : DbScript) : Site :=
  let r := w.relay.transact script (c.unit topics)
  { w with
    relay := r.2.enroll (r.2.table.drop w.relay.table.length)
    history := w.history ++ c.incidentsAfter r.1 }

/-- Hands a delivery to the handler of user events. -/
def handle (w : Site) (legacy : Bool) (d : Delivery) (script : DbScript) : Site :=
  let r := w.relay.transact script (Handler.handle legacy d)
  { w with
    relay := r.2
    history := w.history ++ (Handler.reaction legacy d.payload).incidentsAfter r.1 }

end Site

namespace Deployment

/-- An entry of the user events as it is handed over. -/
def delivery (p : Deployment) (partition : Int) (e : Entry) : Delivery :=
  .ofFields p.topics.users partition e.id.text e.fields

/-! ## Steps -/

/-- One thing that happens in a deployment. -/
inductive Step (p : Deployment) : Site → Site → Prop where
  /-- Something happens among publishers and other producers. -/
  | relay (w : Site) {r : Relay} (h : Publisher.Step p.pubs p.broker w.relay r) :
      Step p w { w with relay := r }
  /-- A service is called, for anything but a new task. -/
  | call (w : Site) {c : Service.Call} (hcall : ∀ owner user title description,
      c ≠ .createTask owner user title description) {script : DbScript}
      (hsound : Service.Visit.IsSound p.topics ⟨c, { w.relay.desk with script }⟩) :
      Step p w (w.serve p.topics c script)
  /-- A caller wants a task. -/
  | ask (w : Site) (user : Int) (title description : Option String) :
      Step p w (w.ask user title description)
  /-- The remote side gives any answer about the owner, or fails. -/
  | settle (w : Site) {before after : List TaskRequest} {q : TaskRequest} {attempt : Nat}
      (hq : w.requests = before ++ q :: after) (hasking : q.stage = .asking attempt)
      (outcome : Except Failure Bool) : Step p w (w.settle before after q attempt outcome)
  /-- The remote side is asked again after a wait. -/
  | resume (w : Site) {before after : List TaskRequest} {q : TaskRequest} {attempt : Nat}
      (hq : w.requests = before ++ q :: after) (hresting : q.stage = .resting attempt) :
      Step p w (w.withRequests (before ++ { q with stage := .asking (attempt + 1) } :: after))
  /-- A request is cancelled in a wait. -/
  | cancel (w : Site) {before after : List TaskRequest} {q : TaskRequest} {attempt : Nat}
      (hq : w.requests = before ++ q :: after) (hresting : q.stage = .resting attempt)
      {cause : Failure} (hcause : cause.isCancellation = true) :
      Step p w (w.cancel before after q cause)
  /-- A check is over, and the task is created if it turned out well. -/
  | create (w : Site) {before after : List TaskRequest} {q : TaskRequest}
      {result : Except Failure Unit} (hq : w.requests = before ++ q :: after)
      (hanswered : q.stage = .answered result) {script : DbScript}
      (hsound : Service.Visit.IsSound p.topics
        ⟨.createTask result q.user q.title q.description, { w.relay.desk with script }⟩) :
      Step p w ((w.withRequests (before ++ after)).serve p.topics
        (.createTask result q.user q.title q.description) script)
  /-- An entry of the user events is handed to the handler. -/
  | handle (w : Site) {partition : Int} {e : Entry}
      (he : e ∈ w.relay.streams.entriesOf (streamName p.topics.users partition))
      {script : DbScript} (hscript : script.IsHonest) :
      Step p w (w.handle p.legacy (p.delivery partition e) script)

/-- A beginning: the tables are empty, there is no stream and no tick, and nobody wants anything. -/
def start (desk : Session) : Site where
  relay := Publisher.start { desk with stored := .empty }
  requests := []
  history := []

/-- What a run of a deployment can come to. -/
inductive Reachable (p : Deployment) : Site → Prop where
  /-- The beginning. -/
  | start (desk : Session) : Reachable p (start desk)
  /-- One step further. -/
  | step {w w' : Site} (h : Reachable p w) (hstep : Step p w w') : Reachable p w'

/-! ## What a step does -/

open Service Publisher

/-- What a step does to the tables, to the relay as publishers see it, and to the history. -/
inductive Effect (p : Deployment) (w w' : Site) : Prop where
  /-- A step of publishers. -/
  | relayed (hstep : Publisher.Step p.pubs p.broker w.relay w'.relay)
      (history : w'.history = w.history)
  /-- A call of a service: its change is stored, and one row is appended that tells of it. -/
  | served (c : Call) (kind : ChangeKind) (e : Entity) (d : Database) (at' : Instant)
      (performs : Performs c kind e w.stored d) (dated : at'.wall.isDated = true)
      (stored : w'.stored = announced p.topics kind e at' d)
      (relay : Likeness w'.relay (w.relay.append (e.eventType kind) (p.topics.of e)
        (e.wire kind at') (some (toString e.id)) at'))
      (history : w'.history = w.history ++ c.incidents)
  /-- A delivery is processed: its effect is stored, together with a record. -/
  | processed (partition : Int) (e : Entry)
      (mem : e ∈ w.relay.streams.entriesOf (streamName p.topics.users partition)) (row : LedgerRow)
      (key : row.eventKey = (p.delivery partition e).eventKey)
      (stored : w'.stored =
        { (Handler.reaction p.legacy (p.delivery partition e).payload).onTables w.stored with
          ledger := w.stored.ledger ++ [row] })
      (relay : Likeness w'.relay w.relay)
      (history : w'.history = w.history ++
        (Handler.reaction p.legacy (p.delivery partition e).payload).incidents)
  /-- Nothing is stored. -/
  | aside (stored : w'.stored = w.stored) (relay : Likeness w'.relay w.relay)
      (history : w'.history = w.history)

variable {p : Deployment} {w w' : Site}

/-- A call changes nothing but users and tasks. -/
theorem rest_of_performs {c : Call} {kind : ChangeKind} {e : Entity} {d d' : Database}
    (h : Performs c kind e d d') : d'.outbox = d.outbox ∧ d'.ledger = d.ledger := by
  cases h with
  | createUser h =>
    obtain ⟨address, -, -, -, rfl⟩ := eq_of_addUser h
    exact ⟨rfl, rfl⟩
  | updateUser _ h =>
    obtain ⟨old, -, -, -, rfl⟩ := eq_of_updateUser h
    exact ⟨rfl, rfl⟩
  | deleteUser _ h => exact ⟨rfl, rfl⟩
  | createTask _ h =>
    obtain ⟨name, -, -, rfl⟩ := eq_of_addTask h
    exact ⟨rfl, rfl⟩
  | updateTask _ h =>
    obtain ⟨old, -, -, name, -, -, rfl⟩ := eq_of_updateTask h
    exact ⟨rfl, rfl⟩
  | deleteTask _ h => exact ⟨rfl, rfl⟩

/-- A call of a service that returns has appended its row, and one that raises has done nothing. -/
theorem effect_serve (requests : List TaskRequest) {c : Call} {script : DbScript}
    (hsound : Visit.IsSound p.topics ⟨c, { w.relay.desk with script }⟩) :
    Effect p w ((w.withRequests requests).serve p.topics c script) := by
  have h : Service.Transacted p.topics c { w.relay.desk with script }
      ((c.unit p.topics).run { w.relay.desk with script }) := transacted hsound.honest c
  have hends := hsound.ends
  unfold Site.serve Relay.transact
  unfold Visit.outcome at hends
  dsimp only [Site.withRequests] at h hends ⊢
  generalize (c.unit p.topics).run { w.relay.desk with script } = outcome at h hends ⊢
  cases h with
  | raised e t entity kind hstored htally =>
    have hrows : t.stored.outbox.drop w.relay.table.length = [] := by
      rw [hstored]
      exact List.drop_length
    dsimp only [Relay.table]
    rw [show List.drop w.relay.desk.stored.outbox.length t.stored.outbox = [] from hrows]
    exact .aside hstored { Likeness.refl w.relay with table := congrArg Database.outbox hstored }
      (List.append_nil _)
  | returned kind e entity t hstores htally =>
    obtain ⟨d, at', hperforms, hbegin, hend, hstored⟩ := hstores
    have houtbox : d.outbox = w.relay.table := (rest_of_performs hperforms).1
    have htable : t.stored.outbox =
        w.relay.table ++ [announcement p.topics kind e at' w.relay.table] := by
      rw [hstored, ← houtbox]
      rfl
    have hrows : t.stored.outbox.drop w.relay.table.length =
        [announcement p.topics kind e at' w.relay.table] := by
      rw [htable, List.drop_left]
    dsimp only [Relay.table]
    rw [show List.drop w.relay.desk.stored.outbox.length t.stored.outbox = _ from hrows]
    exact .served c kind e d at' hperforms
      (Timestamp.isDated_wall_between hsound.begins hends hbegin hend) hstored
      { Likeness.refl w.relay with
        table := htable
        births := rfl
        serial := rfl } rfl

/-- A delivery that is processed has its effect and a record, and any other one has done nothing. -/
theorem effect_handle {partition : Int} {e : Entry}
    (he : e ∈ w.relay.streams.entriesOf (streamName p.topics.users partition))
    {script : DbScript} (hscript : script.IsHonest) :
    Effect p w (w.handle p.legacy (p.delivery partition e) script) := by
  have h := Handler.handled_run (s := { w.relay.desk with script }) hscript p.legacy
    (p.delivery partition e)
  unfold Site.handle Relay.transact
  dsimp only
  generalize (Handler.handle p.legacy (p.delivery partition e)).run
    { w.relay.desk with script } = outcome at h ⊢
  have hquiet : outcome.2.stored = w.stored → outcome.1 ≠ .ok .processed →
      Effect p w ⟨{ w.relay with desk := { outcome.2 with now := w.now } }, w.requests,
        w.history ++ (Handler.reaction p.legacy (p.delivery partition e).payload).incidentsAfter
          outcome.1⟩ := by
    intro hstored hresult
    refine .aside hstored
      { Likeness.refl w.relay with table := congrArg Database.outbox hstored } ?_
    dsimp only
    rw [Handler.incidentsAfter_of_ne _ hresult, List.append_nil]
  cases h with
  | known _ hr hstored _ _ => exact hquiet hstored (by rw [hr]; nofun)
  | refused _ _ hr hstored _ _ =>
    obtain ⟨cause, hcause⟩ := hr
    exact hquiet hstored (by rw [hcause]; nofun)
  | failed _ hr hstored => exact hquiet hstored hr
  | done _ _ hr row hkey hstored _ _ =>
    rw [hr]
    have houtbox : outcome.2.stored.outbox = w.stored.outbox := by
      rw [hstored]
      rfl
    exact .processed partition e he row hkey hstored
      { Likeness.refl w.relay with table := houtbox } rfl

/-- The cache and the requests are nothing that is stored. -/
theorem effect_withCache (cache : Cache) (requests : List TaskRequest) :
    Effect p w ((w.withCache cache).withRequests requests) :=
  .aside rfl { Likeness.refl w.relay with } rfl

/-- Every step has one of these effects. -/
theorem effect_of_step (hstep : Step p w w') : Effect p w w' := by
  cases hstep with
  | relay h => exact .relayed h rfl
  | call hcall hsound => exact effect_serve w.requests hsound
  | ask user title description => exact effect_withCache _ _
  | settle hq hasking outcome => exact effect_withCache _ _
  | resume hq hresting => exact effect_withCache w.cache _
  | cancel hq hresting hcause => exact effect_withCache _ _
  | create hq hanswered hsound => exact effect_serve _ hsound
  | handle he hscript => exact effect_handle he hscript

end Deployment

end EventRelay
