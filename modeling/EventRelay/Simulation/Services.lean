import EventRelay.Service.Tasks
import EventRelay.Service.Users
import EventRelay.Simulation.Activity
import EventRelay.Web.Reply

/-!
# Services as a whole

Starting the services with everything that belongs to them, the scripts that prepare a database
or a broker, and answering requests over the web.
-/

namespace EventRelay.Simulation.Plan

/-! ## Consumers -/

/-- Starts the activities of a consumer, one for each partition. -/
def startConsumer (host : Host) (m : Member) : Plan (List Nat) := do
  ensureGroups m.config
  (List.range m.config.partitions.toNat).mapM fun (n : Nat) =>
    start (.consume host m.config m.callback n) pure

/-- Cancels activities, and waits for their ends. -/
def stopAll (activities : List Nat) : Plan Unit := do
  activities.forM fun n => cancel n (pure ())
  activities.forM join

/-! ## Periodic tasks -/

/-- Starts a periodic task: its activity, and the signal that stops it. -/
def startPeriodic (cfg : PeriodicConfig) (duty : Duty) : Plan (Nat × Nat) := do
  let number ← updateWith fun w => (w.nextSignal, { w with nextSignal := w.nextSignal + 1 })
  start (.tick cfg duty number) fun activity => pure (activity, number)

/-- Stops a periodic task, and waits for the tick in progress; a task that was cancelled in a
tick passes its failure on. -/
def stopPeriodic (task : Nat × Nat) : Plan Unit := do
  signal task.2
  join task.1
  failure task.1 fun
    | some e => fail e
    | none => pure ()

/-! ## Services -/

/-- Takes note that a connection to the broker was closed. -/
def closeBroker : Plan Unit := update fun w => { w with closed := w.closed + 1 }

/-- Runs the publisher of the settings for some time. -/
def runPublisher (span : Span) : Plan Unit := do
  let settings := (← world).settings
  let tasks ← settings.periodicTasks.mapM fun (cfg, duty) => startPeriodic cfg duty
  pause span
  tasks.forM stopPeriodic
  closeBroker

/-- Runs the consumers of the settings for some time. -/
def runConsumers (span : Span) : Plan Unit := do
  let w ← world
  let last := w.now.after (max 0 span)
  match ← (w.settings.consumers w.settings.broker).mapM (startConsumer .service ·.2) |>.attempt with
  | .ok activities =>
    pause (last - (← world).now)
    activities.forM stopAll
    closeBroker
  | .error e =>
    pause (last - (← world).now)
    fail e

/-- Runs the service of the settings as a whole for some time. -/
def runService (span : Span) : Plan Unit := do
  let settings := (← world).settings
  let tasks ←
    if settings.publisherEnabled then
      settings.periodicTasks.mapM fun (cfg, duty) => startPeriodic cfg duty
    else pure []
  let activities ←
    if settings.serviceName = .tasks ∧ settings.consumerEnabled then
      (settings.consumers settings.broker).mapM (startConsumer .service ·.2)
    else pure []
  pause span
  activities.forM stopAll
  tasks.forM stopPeriodic
  closeBroker

/-! ## Scripts -/

/-- Adds the users of every development database, as far as their addresses are free. -/
def seed : Plan Unit :=
  Service.sampleUsers.forM fun (email, firstName, lastName) => do
    let topic := (← world).settings.userTopic
    match ← (unit .service (Service.createUser topic email firstName lastName)).attempt with
    | .ok _ => return ()
    | .error (.emailTaken _) => return ()
    | .error e => fail e

/-- Creates the groups of the tasks service. -/
def createGroups : Plan Unit := do
  let s := (← world).settings
  let targets := [(s.userTopic, s.consumerGroup), (s.deadLetterTopic, s.deadLetterGroup)]
  let result ← attempt <| targets.forM fun (topic, group) =>
    (List.range s.partitions.toNat).forM fun n => ensureGroup (streamName topic n) group
  closeBroker
  done result

/-- Prepares an empty database. -/
def resetDatabase : Plan Unit := update fun w => { w with database := .empty, staged := .empty }

/-! ## The web -/

/-- What goes wrong around a request. -/
structure WebFaults where
  /-- What opening a unit of work raises. -/
  unit : Option Failure
  /-- What asking the database for a sign of life raises. -/
  database : Option Failure
  /-- Whether the service has no connection to the broker. -/
  noBroker : Bool
deriving DecidableEq, Repr

/-- Why the broker does not answer, if it does not. -/
def brokerTrouble (noBroker : Bool) : Plan (Option Failure) := do
  if noBroker then return some (.noAttribute "State" "redis")
  match ← attempt ping with
  | .ok () => return none
  | .error e => if e.isCancellation then fail e else return some e

/-- The response of a part of a service. -/
def respond (faults : WebFaults) (service : ServiceName) : Web.Route → Plan Web.Response
  | .alive => return .alive service
  | .metrics => return .exposition
  | .description => return .document 200 (Web.description service)
  | .manual => return .manual service
  | .ready => do
    conclude faults.database.isNone
    let broker ← brokerTrouble faults.noBroker
    let w ← world
    let circuit := match service with
      | .tasks => some (Web.breakerDocument w.cache.circuit.name w.cache.breaker)
      | .users => none
    let reasons := (faults.database.map fun e => "postgres: " ++ e.message).toList ++
      (broker.map fun e => "redis: " ++ e.message).toList
    return .readiness reasons circuit
  | .userExists number =>
    match faults.unit, Scalar.integer number with
    | some e, _ => fail e
    | none, .error fault => return .badNumber number fault
    | none, .ok user => do return .existence user (← unit .service (Work.userExists user))

/-- The response to a request that is no request for permission. -/
def serve (faults : WebFaults) (service : ServiceName) (r : Web.Request) :
    Plan (Except Failure Web.Response) :=
  match r.destination service with
  | .nowhere => return .ok .notFound
  | .elsewhere => return .ok .redirect
  | .wrongMethod allowed => return .ok (.methodNotAllowed allowed)
  | .route route => do
    match ← (respond faults service route).attempt with
    | .ok response => return .ok response
    | .error e => return match Web.Response.ofFailure? e with
      | some response => .ok response
      | none => .error e

/-- The response to a request.  A failure that the service does not know leaves no trace of the
request in its response. -/
def request (faults : WebFaults) (service : Option ServiceName) (r : Web.Request) :
    Plan Web.Response := do
  let service ← updateWith fun w =>
    let service := service.getD w.service
    (service, { w with service })
  if let some e := r.fault? then fail e
  let origins := (← world).settings.corsOrigins
  match Web.Cors.permission? origins r with
  | some response => return response.outgoing r
  | none =>
    match ← serve faults service r with
    | .ok response => return (response.withHeaders (Web.Cors.added origins r)).outgoing r
    | .error _ => return .serverError

end EventRelay.Simulation.Plan
