import EventRelay.Failure
import EventRelay.Partition
import EventRelay.Stream.Entry

/-!
# The streams of a broker

All streams by name, and the operations that producers and consumers call: append, create a
group, read as a member of a group, take over idle entries, acknowledge.

Reading new entries hands them over and makes them pending; reading one's own entries again and
acknowledging are the only ways back to them besides a take-over.

Three things that a broker in service does are left out.  A stream is not trimmed by an append to it:
the length that was asked for is noted with the entry, and entries are removed by `erase` only.  A
take-over goes through the pending entries as far as it takes, and does not stop after ten times as
many as it may hand over.  Reading one's own entries again refreshes neither the time of their
delivery nor the count.
-/

namespace EventRelay

/-- All streams. -/
abbrev Streams := List Stream

/-- An entry as a reader sees it: its identifier, and its fields unless it was removed. -/
abbrev Handed := String × Option Fields

namespace Streams

/-- The stream of that name. -/
def get? (ss : Streams) (name : String) : Option Stream := ss.find? (·.name = name)

/-- Puts a stream in the place of the one of its name, or at the end. -/
def put (ss : Streams) (s : Stream) : Streams :=
  match ss with
  | [] => [s]
  | t :: rest => if t.name = s.name then s :: rest else t :: put rest s

/-- Appends an entry, to a new stream if there is none of the name.  Nothing is trimmed for it. -/
def append (ss : Streams) (name : String) (now : Instant) (fields : Fields)
    (maxlen : Option Int) (approximate : Bool) : EntryId × Streams :=
  let s := (ss.get? name).getD (.empty name)
  let (id, s) := s.append now fields maxlen approximate
  (id, ss.put s)

/-- Removes the entry whose identifier is written so. -/
def erase (ss : Streams) (name id : String) : Streams :=
  match ss.get? name with
  | some s => ss.put (s.erase id)
  | none => ss

/-- Creates a group that starts before all entries, on a new stream if there is none of the
name. -/
def createGroup (ss : Streams) (name group : String) : Except Failure Streams :=
  let s := (ss.get? name).getD (.empty name)
  match s.group? group with
  | some _ => .error .groupExists
  | none => .ok (ss.put { s with groups := s.groups ++ [⟨group, .zero, []⟩] })

/-- The stream and its group, for an operation that needs both. -/
def member (ss : Streams) (name group : String) : Except Failure (Stream × Group) :=
  match ss.get? name with
  | none => .error .noSuchGroup
  | some s =>
    match s.group? group with
    | none => .error .noSuchGroup
    | some g => .ok (s, g)

/-- The entries that a group has not been handed yet. -/
def fresh (s : Stream) (g : Group) : List Entry := s.entries.filter fun e => g.last.lt e.id

/-- Hands up to `count` new entries to a consumer. -/
def readNew (ss : Streams) (name group consumer : String) (count : Nat) (now : Instant) :
    Except Failure (List Handed × Streams) :=
  match ss.member name group with
  | .error e => .error e
  | .ok (s, g) =>
    let taken := (fresh s g).take count
    let g := if taken = [] then g else g.hand consumer now (taken.map (·.id))
    .ok (taken.map fun e => (e.id.text, some e.fields), ss.put (s.putGroup g))

/-- Shows up to `count` entries that are pending for a consumer, in order.  Nothing changes, so they
are idle since they were handed over or taken over last. -/
def readOwn (ss : Streams) (name group consumer : String) (count : Nat) :
    Except Failure (List Handed) :=
  match ss.member name group with
  | .error e => .error e
  | .ok (s, g) => .ok ((g.ownedBy consumer).take count |>.map fun p => (p.id.text, s.fieldsOf? p.id))

/-- Goes through pending entries until so many are found that are still there: those with their
fields, and the removed ones met on the way. -/
def sift (s : Stream) : Nat → List Pending → List (EntryId × Fields) × List EntryId
  | 0, _ => ([], [])
  | _, [] => ([], [])
  | count + 1, p :: ps =>
    match s.fieldsOf? p.id with
    | some fields =>
      let (found, removed) := sift s count ps
      ((p.id, fields) :: found, removed)
    | none =>
      let (found, removed) := sift s (count + 1) ps
      (found, p.id :: removed)

/-- Hands up to `count` entries, idle for at least so many milliseconds, over to a consumer.
Removed ones among them are not counted; they leave the pending list instead.  The search is not
limited: it goes on to the last pending entry. -/
def takeOver (ss : Streams) (name group consumer : String) (least : Int) (count : Nat)
    (now : Instant) : Except Failure (List (String × Fields) × Streams) :=
  match ss.member name group with
  | .error e => .error e
  | .ok (s, g) =>
    let (found, removed) := sift s count (g.idleFor now least)
    let pending := (g.pending.filter fun p => !removed.contains p.id).map fun p =>
      if (found.map (·.1)).contains p.id then
        { p with owner := consumer, since := now.milliseconds, deliveries := p.deliveries + 1 }
      else p
    .ok (found.map fun (id, fields) => (id.text, fields),
      ss.put (s.putGroup { g with pending }))

/-- Settles the entry whose identifier is written so; where there is nothing to settle nothing
happens. -/
def acknowledge (ss : Streams) (name group id : String) : Streams :=
  match ss.member name group with
  | .ok (s, g) => ss.put (s.putGroup (g.acknowledge id))
  | .error _ => ss

/-- Whether a group could be handed something new. -/
def hasFresh (ss : Streams) (name group : String) : Bool :=
  match ss.member name group with
  | .ok (s, g) => !(fresh s g).isEmpty
  | .error _ => false

end Streams

/-! ## Sending -/

/-- How messages are spread over streams. -/
structure Broker where
  /-- The number of partitions of every topic. -/
  partitions : Int
  /-- The length to which streams are to be trimmed. -/
  maxlen : Option Int
deriving DecidableEq, Repr

/-- A message on its way to a broker. -/
structure Message where
  /-- The topic. -/
  topic : String
  /-- The key that fixes the partition. -/
  key : String
  /-- The content. -/
  payload : String
  /-- The headers. -/
  headers : List (String × String)
deriving DecidableEq, Repr

/-- Where an accepted message lies. -/
structure Receipt where
  /-- The topic. -/
  topic : String
  /-- The partition. -/
  partition : Int
  /-- The identifier of the entry. -/
  offset : String
deriving DecidableEq, Repr

namespace Broker

/-- Appends a message to the stream of its key's partition. -/
def accept (b : Broker) (m : Message) (partition : Int) (now : Instant) (ss : Streams) :
    Receipt × Streams :=
  let (id, ss) := ss.append (streamName m.topic partition) now
    (.ofMessage m.key m.payload m.headers) b.maxlen true
  (⟨m.topic, partition, id.text⟩, ss)

/-- Sends a message with nothing in the way. -/
def send (b : Broker) (m : Message) (now : Instant) (ss : Streams) :
    Except Failure (Receipt × Streams) :=
  (partitionFor m.key b.partitions).map fun p => b.accept m p now ss

end Broker

end EventRelay
