import EventRelay.Simulation.Commands

/-!
# Activities

What the parts of the system do, as plans: asking the existence cache, publishing, handling
deliveries with and without retries, consuming, and ticking periodically.  The rules are those of
the parts themselves; a plan only carries requests out and feeds the responses back.
-/

namespace EventRelay.Simulation.Plan

/-! ## The existence cache -/

/-- Takes over what a step of the cache did. -/
def cacheStep {α : Type} (f : World → CacheStep α) : Plan α :=
  updateWith fun w =>
    let s := f w
    (s.decision, { w with cache := s.cache, notices := w.notices ++ s.notices })

/-- Asks the users service. -/
def askDirectory (user : Int) : Plan Bool := do
  let o ← updateWith fun w =>
    let (o, directory) := w.directory.ask user
    (o, { w with directory })
  pause o.delay
  done ((← world).directory.verdict user o.turn)

/-- Asks the users service until the cache has an answer; the attempts are counted from one. -/
def askRepeatedly (user : Int) : Nat → Nat → Plan Unit
  | 0, _ => pure ()
  | fuel + 1, attempt => do
    let outcome ← (askDirectory user).attempt
    match ← cacheStep fun w => w.cache.settle w.now user attempt outcome with
    | .finished result => done result
    | .again span =>
      match ← (pause span).attempt with
      | .ok () => askRepeatedly user fuel (attempt + 1)
      | .error e =>
        match ← cacheStep fun w => w.cache.abandon w.now user e with
        | .finished result => done result
        | .again _ => fail e

/-- Whether a user exists, as the cache knows it. -/
def check (user : Int) : Plan Unit := do
  match ← cacheStep fun w => w.cache.consult w.now user with
  | .answered result => done result
  | .admitted => askRepeatedly user (← world).cache.policy.limit 1

/-! ## Publishing -/

/-- Lets the sends of a batch land; `fuel` bounds the number of landings. -/
def landAll (broker : Broker) : Nat → List Publisher.Flight → Plan (List Publisher.Flight)
  | 0, flights => return flights
  | fuel + 1, flights => do
    let flights ← updateWith fun w =>
      let (flights, streams) := Publisher.landDue broker w.now flights w.streams
      (flights, { w with streams })
    match Publisher.nextDue? flights with
    | none => return flights
    | some due =>
      wait (.instant due) done
      landAll broker fuel flights

/-- Records the outcomes of a batch, one by one, and counts the rows published. -/
def reconcileAll (host : Host) (cfg : PublisherConfig) :
    List (OutboxRow × Except Failure Receipt) → Nat → Plan Nat
  | [], published => return published
  | (row, result) :: rest, published => do
    let hit ← unit host (Publisher.reconcile cfg row result)
    reconcileAll host cfg rest (if hit then published + 1 else published)

/-- A tick of a publisher: how many rows it published. -/
def publish (host : Host) (cfg : PublisherConfig) (broker : Broker) : Plan Nat := do
  let rows ← unit host (Publisher.claimBatch cfg)
  let flights ← updateWith fun w =>
    let (flights, rest) :=
      Publisher.launchAll cfg broker w.now w.now.after rows w.brokerScript.append
    (flights, { w with brokerScript := { w.brokerScript with append := rest } })
  let flights ← landAll broker (rows.length + 1) flights
  reconcileAll host cfg (Publisher.results flights) 0

/-- Removes published rows. -/
def clean (host : Host) (cfg : PublisherConfig) : Plan Nat := unit host (Publisher.cleanup cfg)

/-! ## Handling deliveries -/

/-- Applies the event of a delivery. -/
def apply (host : Host) (legacy : Bool) (d : Delivery) : Plan HandleOutcome :=
  unit host (Handler.handle legacy d)

/-- Moves a delivery to its dead-letter topic, and counts and tells it. -/
def bury (broker : Broker) (policy : RetryPolicy) (ending : String) (d : Delivery)
    (cause : Failure) (m : Message) : Plan Unit := do
  let _ ← send broker m
  update fun w => { w with tally := w.tally.grow (.deadLettered d.topic) 1 }
  tell (Retry.movedNotice policy ending d cause)

/-- Carries a run with retries out; `fuel` bounds the number of requests. -/
def followRetry (broker : Broker) (policy : RetryPolicy) (ending : String) (d : Delivery)
    (handler : Plan Unit) : Nat → RetryState → RetryRequest → Plan Unit
  | 0, _, _ => pure ()
  | fuel + 1, state, request => do
    let carryOut : Plan Unit := match request, state with
      | .call, _ => handler
      | .rest n, _ => pause (policy.backoff.wait n)
      | .send m, .escalating cause => bury broker policy ending d cause m
      | _, _ => pure ()
    match request with
    | .finish result => done result
    | _ =>
      let response ← carryOut.attempt
      let (state, request) := Retry.advance policy ending d state response
      followRetry broker policy ending d handler fuel state request

/-- Applies the event of a delivery, with retries. -/
def guarded (host : Host) (legacy : Bool) (policy : RetryPolicy) (ending : String)
    (broker : Broker) (d : Delivery) : Plan Unit :=
  let handler : Plan Unit := do
    let _ ← apply host legacy d
  let (state, request) := Retry.start
  followRetry broker policy ending d handler (2 * policy.limit + 2) state request

/-- Changes the consumer of a number. -/
def onMember (number : Nat) (f : Member → Member) : Plan Unit :=
  update fun w => { w with members := w.members.modify number f }

/-- Notes a delivery down and plays the next outcome of a consumer's script. -/
def playScript (consumer : Nat) (d : Delivery) : Plan Unit := do
  match (← world).members[consumer]? with
  | none => pure ()
  | some m =>
    let (o, script) := Outcome.next m.script
    onMember consumer fun m => { m with script, seen := m.seen ++ [d] }
    pause o.delay
    match o.turn with
    | .raise e => fail e
    | _ => pure ()

/-- Gives a delivery to a callback. -/
def deliver (host : Host) (callback : Callback) (d : Delivery) : Plan Unit :=
  match callback with
  | .scripted consumer => playScript consumer d
  | .apply legacy => do
    let _ ← apply host legacy d
  | .guarded legacy policy ending broker => guarded host legacy policy ending broker d
  | .report => tell d.deadLetterNotice

/-! ## Consuming -/

/-- Turns a result into a response to a consumer. -/
def responseOf {α : Type} (ok : α → ConsumerResponse) : Except Failure α → ConsumerResponse
  | .ok a => ok a
  | .error e => .failed e

/-- Carries a request of a consumer out. -/
def carryOut (host : Host) (c : ConsumerConfig) (callback : Callback) (partition : Int) :
    ConsumerRequest → Plan ConsumerResponse
  | .readOwn => return responseOf .batch (← (read c (c.stream partition) "0" none).attempt)
  | .readNew =>
    return responseOf .batch (← (read c (c.stream partition) ">" (some c.blockMs)).attempt)
  | .takeOver => return responseOf .batch (← (takeOver c (c.stream partition)).attempt)
  | .handle d => return responseOf (fun _ => .done) (← (deliver host callback d).attempt)
  | .acknowledge entry =>
    return responseOf (fun _ => .done) (← (acknowledge c (c.stream partition) entry).attempt)
  | .rest => return responseOf (fun _ => .done) (← (pause Consumer.pause).attempt)
  | .finish _ => return .done

/-- Follows a consumer from a move on; `fuel` bounds the number of requests. -/
def followConsumer (host : Host) (c : ConsumerConfig) (callback : Callback) (partition : Int)
    (mode : Mode) : Nat → ConsumerMove → Plan Nat
  | 0, _ => return 0
  | fuel + 1, move => do
    move.notices.forM tell
    match move.request with
    | .finish result => done result
    | request =>
      let response ← carryOut host c callback partition request
      followConsumer host c callback partition mode fuel
        (Consumer.advance c partition mode move.state response)

/-- Works on a partition without end. -/
def consume (host : Host) (c : ConsumerConfig) (callback : Callback) (partition : Int) :
    Plan Unit := do
  let _ ← followConsumer host c callback partition .endless endless Consumer.start

/-- Works on one batch: how many of its entries were acknowledged. -/
def dispatchAll (host : Host) (c : ConsumerConfig) (callback : Callback) (partition : Int)
    (source : Source) (entries : List Handed) : Plan Nat :=
  followConsumer host c callback partition .once (2 * entries.length + 1)
    (Consumer.next c partition .once source entries 0)

/-! ## Ticking periodically -/

/-- Whether a signal was given. -/
def signalled (number : Nat) : Plan Bool := return (← world).signals.contains number

/-- Gives a signal. -/
def signal (number : Nat) : Plan Unit := update fun w => { w with signals := number :: w.signals }

/-- Does what a periodic task is for. -/
def perform : Duty → Plan Unit
  | .publish cfg broker => do
    let _ ← publish .service cfg broker
  | .clean cfg => do
    let _ ← clean .service cfg

/-- Follows a periodic task; a signal stops it.  `fuel` bounds the number of its phases. -/
def followPeriodic (cfg : PeriodicConfig) (duty : Duty) (number : Nat) :
    Nat → Periodic → Plan Unit
  | 0, _ => pure ()
  | fuel + 1, p =>
    match p.phase with
    | .idle => pure ()
    | .dead e => fail e
    | .started => do
      let p := if ← signalled number then p.stop else p
      followPeriodic cfg duty number fuel (p.turn cfg (← world).now)
    | .leaving => do followPeriodic cfg duty number fuel (p.turn cfg (← world).now)
    | .waiting due => do
      wait (.signal number due) done
      let p := if ← signalled number then p.stop else p.wake
      followPeriodic cfg duty number fuel p
    | .ticking => do
      let result ← (perform duty).attempt
      let p := if ← signalled number then p.stop else p
      let (p, notices) := p.finishTick cfg (← world).now result
      notices.forM tell
      followPeriodic cfg duty number fuel p

/-- What a job does. -/
def ofJob : Job → Plan Unit
  | .consume host c callback partition => consume host c callback partition
  | .tick cfg duty number => followPeriodic cfg duty number endless Periodic.fresh.start

end EventRelay.Simulation.Plan
