import EventRelay.Simulation.Units

/-!
# Commands of the broker as plans

The commands that producers and consumers give, each subject to its script.  Reads and take-overs
are noted down.  A read of new entries may wait for them; it is woken by the first that arrives.
-/

namespace EventRelay.Simulation.Plan

/-- Takes the next outcome of the appends. -/
def nextAppend (w : World) : Outcome String × World :=
  let (o, rest) := Outcome.next w.brokerScript.append
  (o, { w with brokerScript := { w.brokerScript with append := rest } })

/-- Takes the next outcome of the creations of groups. -/
def nextCreateGroup (w : World) : Outcome Unit × World :=
  let (o, rest) := Outcome.next w.brokerScript.createGroup
  (o, { w with brokerScript := { w.brokerScript with createGroup := rest } })

/-- Takes the next outcome of the reads. -/
def nextRead (w : World) : Outcome (List Handed) × World :=
  let (o, rest) := Outcome.next w.brokerScript.read
  (o, { w with brokerScript := { w.brokerScript with read := rest } })

/-- Takes the next outcome of the take-overs. -/
def nextTakeOver (w : World) : Outcome (List Handed) × World :=
  let (o, rest) := Outcome.next w.brokerScript.takeOver
  (o, { w with brokerScript := { w.brokerScript with takeOver := rest } })

/-- Takes the next outcome of the acknowledgements. -/
def nextAcknowledge (w : World) : Outcome Unit × World :=
  let (o, rest) := Outcome.next w.brokerScript.acknowledge
  (o, { w with brokerScript := { w.brokerScript with acknowledge := rest } })

/-- Takes the next outcome of the pings. -/
def nextPing (w : World) : Outcome Unit × World :=
  let (o, rest) := Outcome.next w.brokerScript.ping
  (o, { w with brokerScript := { w.brokerScript with ping := rest } })

/-- Changes the streams, or fails and leaves them. -/
def onStreams {α : Type} (f : World → Except Failure (α × Streams)) : Plan α := do
  match f (← world) with
  | .ok (a, streams) =>
    update fun w => { w with streams }
    return a
  | .error e => fail e

/-! ## Producing -/

/-- Appends an entry. -/
def append (stream : String) (fields : Fields) (maxlen : Option Int) : Plan String :=
  scripted nextAppend <| updateWith fun w =>
    let (id, streams) := w.streams.append stream w.now fields maxlen true
    (id.text, { w with streams })

/-- Sends a message. -/
def send (broker : Broker) (m : Message) : Plan Receipt := do
  let partition ← done (partitionFor m.key broker.partitions)
  let offset ← append (streamName m.topic partition)
    (.ofMessage m.key m.payload m.headers) broker.maxlen
  return ⟨m.topic, partition, offset⟩

/-- Asks the broker for a sign of life. -/
def ping : Plan Unit := scripted nextPing (pure ())

/-! ## Consuming -/

/-- Creates a group. -/
def createGroup (stream group : String) : Plan Unit :=
  scripted nextCreateGroup <|
    onStreams fun w => (w.streams.createGroup stream group).map ((), ·)

/-- Creates a group unless it exists already. -/
def ensureGroup (stream group : String) : Plan Unit := do
  match ← attempt (createGroup stream group) with
  | .ok () => return ()
  | .error e => if e.meansGroupExists then return () else fail e

/-- Creates the group of a consumer on all its partitions, as far as it does not exist. -/
def ensureGroups (c : ConsumerConfig) : Plan Unit :=
  (List.range c.partitions.toNat).forM fun n => ensureGroup (c.stream n) c.group

/-- Notes a read down. -/
def noteRead (line : String) : Plan Unit := update fun w => { w with reads := w.reads ++ [line] }

/-- The number of entries that a consumer reads at once. -/
def batchSize (c : ConsumerConfig) : Nat := c.batch.toNat

/-- A limit of waiting, as it is noted down. -/
def limitText : Option Int → String
  | some ms => toString ms
  | none => "None"

/-- Reads new entries, waiting for them for up to a number of milliseconds.  One that reads none
at all is not woken by any. -/
def takeNew (c : ConsumerConfig) (stream : String) (limit : Option Int) : Plan (List Handed) := do
  let read : Plan (List Handed) :=
    onStreams fun w => w.streams.readNew stream c.group c.name (batchSize c) w.now
  let entries ← read
  match entries, limit with
  | [], some ms =>
    if ms ≤ 0 then return []
    else
      let due := (← world).now.after (Span.ofMilliseconds ms)
      wait (if batchSize c = 0 then .instant due else .entries stream c.group due) done
      read
  | entries, _ => return entries

/-- Reads as a member of a group.  The marker for new entries is a greater-than sign; every other
starting point shows the consumer's own pending entries. -/
def read (c : ConsumerConfig) (stream start : String) (limit : Option Int) :
    Plan (List Handed) := do
  noteRead s!"xreadgroup {stream} {start} count={c.batch} block={limitText limit}"
  scripted nextRead <|
    if start = ">" then takeNew c stream limit
    else onStreams fun w =>
      (w.streams.readOwn stream c.group c.name (batchSize c)).map (·, w.streams)

/-- Takes over entries that have been idle for long enough. -/
def takeOver (c : ConsumerConfig) (stream : String) : Plan (List Handed) := do
  noteRead s!"xautoclaim {stream} idle={c.idleMs} start=0-0 count={c.batch}"
  scripted nextTakeOver <| do
    let entries ← onStreams fun w =>
      w.streams.takeOver stream c.group c.name c.idleMs (batchSize c) w.now
    return entries.map fun (id, fields) => (id, some fields)

/-- Acknowledges an entry. -/
def acknowledge (c : ConsumerConfig) (stream entry : String) : Plan Unit :=
  scripted nextAcknowledge <|
    update fun w => { w with streams := w.streams.acknowledge stream c.group entry }

end EventRelay.Simulation.Plan
