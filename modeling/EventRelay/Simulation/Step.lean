import EventRelay.Simulation.Operation
import EventRelay.Simulation.Services

/-!
# Steps of a rehearsal

What a rehearsal can be told to do, and the plan of each step.  Steps that start, cancel and
observe other activities concern the scene and not the world; they are performed with it.
-/

namespace EventRelay.Simulation

/-- A part of a service that can be run by itself. -/
inductive ServicePart where
  /-- The publisher. -/
  | publisher
  /-- The consumers. -/
  | consumers
deriving DecidableEq, Repr

/-- A script that prepares something. -/
inductive Preparation where
  /-- Add the users of a development database. -/
  | seed
  /-- Create the groups of the consumers. -/
  | createGroups
  /-- Prepare an empty database. -/
  | resetDatabase
deriving DecidableEq, Repr

/-- What a consumer is put in place for. -/
inductive Role where
  /-- To note deliveries down and play a script. -/
  | scripted
  /-- To apply events. -/
  | apply
  /-- To tell of dead letters. -/
  | report
deriving DecidableEq, Repr

/-- What the consumer of a number does with a delivery in its role. -/
def Role.callback (legacy : Bool) (number : Nat) : Role → Callback
  | scripted => .scripted number
  | apply => .apply legacy
  | report => .report

/-- Something that an activity can do. -/
inductive Step where
  /-- Perform an operation in a unit of work of its own. -/
  | operation (op : Operation)
  /-- Perform operations in one unit of work. -/
  | transaction (ops : List Operation) (ending : Ending)
  /-- Show tables. -/
  | dump (tables : List TableName)
  /-- Show the counters. -/
  | metrics
  /-- Let time pass. -/
  | advance (span : Span)
  /-- Script an operation of the database. -/
  | scriptDatabase (op : DbOp) (script : List (Outcome Int))
  /-- Script commands of the broker. -/
  | scriptBroker (script : BrokerScript)
  /-- Ask the existence cache. -/
  | check (user : Int)
  /-- Drop a user from the existence cache. -/
  | evict (user : Int)
  /-- Empty the existence cache. -/
  | evictAll
  /-- Change the users service: who exists, the next outcomes, and what comes after them. -/
  | directory (known : Option (List Int)) (script : Option (List (Outcome Bool)))
      (otherwise : Option (Outcome Bool))
  /-- Show the existence cache. -/
  | cache
  /-- Let the publisher tick. -/
  | publish
  /-- Let the publisher remove old rows. -/
  | clean
  /-- Handle a delivery. -/
  | handle (d : Delivery)
  /-- Handle a delivery with retries. -/
  | handleGuarded (d : Delivery) (policy : RetryPolicy) (ending : String)
  /-- Tell of a dead letter, which may have come without any headers. -/
  | deadLetter (d : Delivery) (hasHeaders : Bool)
  /-- Send a message. -/
  | send (m : Message)
  /-- Append an entry. -/
  | append (stream : String) (fields : Fields)
  /-- Remove an entry. -/
  | erase (stream entry : String)
  /-- Show the streams. -/
  | streams
  /-- Show the reads since they were last shown. -/
  | reads
  /-- Put a consumer in place. -/
  | consumer (name : String) (config : ConsumerConfig) (role : Role) (script : List (Outcome Unit))
  /-- Put the consumers of the settings in place. -/
  | buildConsumers
  /-- Create the groups of a consumer. -/
  | ensureGroups (name : String)
  /-- Read and work on one batch. -/
  | read (name : String) (partition : Int) (start : String) (limit : Option Int)
  /-- Take over and work on one batch. -/
  | reclaim (name : String) (partition : Int)
  /-- Work on one entry. -/
  | dispatch (name : String) (partition : Int) (entry : String) (fields : Option Fields)
  /-- Start a consumer. -/
  | startConsumer (name : String)
  /-- Stop a consumer. -/
  | stopConsumer (name : String)
  /-- Show the deliveries that a scripted callback was given since they were last shown. -/
  | seen (name : String)
  /-- Run a part of a service for some time. -/
  | runPart (part : ServicePart) (span : Span)
  /-- Run a service as a whole for some time. -/
  | runService (span : Span)
  /-- Run a script that prepares something. -/
  | prepare (what : Preparation)
  /-- Make a request over the web. -/
  | request (r : Web.Request) (service : Option ServiceName) (faults : Plan.WebFaults)

namespace Step

open Plan

/-- The outbox in the order of its identifiers. -/
def sortedOutbox : Plan Outbox := glance fun d => d.outbox.mergeSort fun a b => a.id ≤ b.id

/-- Goes on with the consumer of a name and its number; without one there is nothing to do. -/
def withMember (name : String) (f : Nat → Member → Plan Answer) : Plan Answer := do
  let w ← world
  match w.member? name with
  | some number =>
    match w.members[number]? with
    | some m => f number m
    | none => return .nothing
  | none => return .nothing

/-- Runs a part of a service. -/
def partPlan : ServicePart → Span → Plan Unit
  | .publisher, span => runPublisher span
  | .consumers, span => runConsumers span

/-- Runs a script. -/
def preparationPlan : Preparation → Plan Unit
  | .seed => seed
  | .createGroups => createGroups
  | .resetDatabase => resetDatabase

/-- The plan of a step. -/
def plan : Step → Plan Answer
  | operation op => op.alone
  | transaction ops ending => Simulation.transaction ops ending
  | dump tables => glance fun d => .tables (tables.map (·.read d))
  | metrics => return .tally (← world).tally
  | advance span => do
    pause span
    return .nothing
  | scriptDatabase op script => do
    update fun w =>
      { w with
        dbScript := fun op' => if op' = op then w.dbScript op ++ script else w.dbScript op' }
    return .nothing
  | scriptBroker script => do
    update fun w => { w with brokerScript := w.brokerScript.followedBy script }
    return .nothing
  | check user => do
    Plan.check user
    return .truth true
  | evict user => do
    update fun w => { w with cache := w.cache.evict user }
    return .nothing
  | evictAll => do
    update fun w => { w with cache := w.cache.evictAll }
    return .nothing
  | directory known script otherwise => do
    update fun w =>
      let d := w.directory
      { w with directory :=
        { d with
          known := known.getD d.known
          script := script.getD d.script
          otherwise := otherwise.getD d.otherwise } }
    return .nothing
  | cache => do
    let w ← world
    return .cache w.cache.entries.length w.directory.asked (.of w.cache)
  | publish => do
    let w ← world
    let count ← Plan.publish .bench w.publisher w.broker
    return .published count (← sortedOutbox)
  | clean => do
    let count ← Plan.clean .bench (← world).publisher
    return .removed count (← sortedOutbox)
  | handle d => do return .handled (← apply .bench (← world).legacy d)
  | handleGuarded d policy ending => do
    let w ← world
    guarded .bench w.legacy policy ending w.broker d
    return .nothing
  | deadLetter d hasHeaders => do
    tell (d.deadLetterNoticeWith hasHeaders)
    return .nothing
  | send m => do return .receipt (← Plan.send (← world).broker m)
  | append stream fields => return .text (← Plan.append stream fields none)
  | erase stream entry => do
    update fun w => { w with streams := w.streams.erase stream entry }
    return .nothing
  | streams => return .streams (← world).streams
  | reads => updateWith fun w => (.texts w.reads, { w with reads := [] })
  | consumer name config role script => do
    update fun w => w.enlist name fun number =>
      { config, callback := role.callback w.legacy number, script }
    return .nothing
  | buildConsumers => do
    update fun w =>
      (w.settings.consumers w.broker).foldl (fun w (name, m) => w.enlist name fun _ => m) w
    return .nothing
  | ensureGroups name => withMember name fun _ m => do
    Plan.ensureGroups m.config
    return .nothing
  | read name partition first limit => withMember name fun _ m => do
    let entries ← Plan.read m.config (m.config.stream partition) first limit
    return .number (← dispatchAll .bench m.config m.callback partition .fresh entries)
  | reclaim name partition => withMember name fun _ m => do
    let entries ← takeOver m.config (m.config.stream partition)
    let _ ← dispatchAll .bench m.config m.callback partition .idle entries
    return .nothing
  | dispatch name partition entry fields => withMember name fun _ m => do
    let acked ← dispatchAll .bench m.config m.callback partition .fresh [(entry, fields)]
    return .truth (acked ≠ 0)
  | startConsumer name => withMember name fun number m => do
    let running ← Plan.startConsumer .bench m
    onMember number fun m => { m with running }
    return .nothing
  | stopConsumer name => withMember name fun number m => do
    stopAll m.running
    onMember number fun m => { m with running := [] }
    return .nothing
  | seen name => withMember name fun number m => do
    onMember number fun m => { m with seen := [] }
    return .deliveries (m.seen.mergeSort fun a b => a.partition ≤ b.partition)
  | runPart part span => do
    partPlan part span
    return .partRun (← world).closed (← sortedOutbox)
  | runService span => do
    Plan.runService span
    let w ← world
    let circuit := match w.settings.serviceName with
      | .tasks => some (.of w.settings.cache)
      | .users => none
    return .serviceRun w.closed circuit (← sortedOutbox)
  | prepare what => do
    preparationPlan what
    return .nothing
  | request r service faults => return .response (← Plan.request faults service r)

end Step

end EventRelay.Simulation
