import EventRelay.Delivery
import EventRelay.Time.Clock

/-!
# Entries of a stream

An entry is identified by the millisecond at which it was appended and a sequence number within
it; identifiers are ordered by both and grow along a stream.  A broker knows no time but the
milliseconds of its clock: it is by them that an entry handed over is idle.
-/

namespace EventRelay

/-- The identifier of an entry. -/
structure EntryId where
  /-- The millisecond. -/
  ms : Nat
  /-- The number of the entry within the millisecond. -/
  seq : Nat
deriving DecidableEq, Repr

namespace EntryId

/-- The identifier before all entries. -/
def zero : EntryId := ⟨0, 0⟩

/-- Whether the first identifier comes before the second. -/
def lt (a b : EntryId) : Bool := a.ms < b.ms || (a.ms = b.ms && a.seq < b.seq)

/-- The written form. -/
def text (i : EntryId) : String := s!"{i.ms}-{i.seq}"

/-- The identifier of an entry appended after the last one: a new millisecond starts at sequence
number zero, within the last one the number goes up. -/
def after (last : EntryId) (now : Instant) : EntryId :=
  let ms := now.milliseconds
  if ms ≤ last.ms then ⟨last.ms, last.seq + 1⟩ else ⟨ms, 0⟩

end EntryId

/-- An entry of a stream. -/
structure Entry where
  /-- Its identifier. -/
  id : EntryId
  /-- Its fields. -/
  fields : Fields
  /-- The length to which the producer asked to trim the stream. -/
  maxlen : Option Int
  /-- Whether that length was meant approximately. -/
  approximate : Bool
deriving DecidableEq, Repr

/-- An entry handed to one consumer of a group and not acknowledged yet. -/
structure Pending where
  /-- The entry. -/
  id : EntryId
  /-- The consumer that has it. -/
  owner : String
  /-- The millisecond at which it was handed over last. -/
  since : Nat
  /-- How often it was handed over. -/
  deliveries : Nat
deriving DecidableEq, Repr

/-- A group of consumers that share the entries of a stream. -/
structure Group where
  /-- The name of the group. -/
  name : String
  /-- The last entry handed to any of them. -/
  last : EntryId
  /-- What is handed over and not acknowledged, in the order of the entries. -/
  pending : List Pending
deriving DecidableEq, Repr

/-- A stream. -/
structure Stream where
  /-- The name of the stream. -/
  name : String
  /-- The entries that are there, in order. -/
  entries : List Entry
  /-- The last identifier given out. -/
  lastId : EntryId
  /-- The groups that read it. -/
  groups : List Group
deriving DecidableEq, Repr

namespace Stream

/-- A stream without entries. -/
def empty (name : String) : Stream := ⟨name, [], .zero, []⟩

/-- The fields of an entry that is still there. -/
def fieldsOf? (s : Stream) (id : EntryId) : Option Fields :=
  (s.entries.find? (·.id = id)).map (·.fields)

/-- Appends an entry. -/
def append (s : Stream) (now : Instant) (fields : Fields) (maxlen : Option Int)
    (approximate : Bool) : EntryId × Stream :=
  let id := EntryId.after s.lastId now
  (id, { s with entries := s.entries ++ [⟨id, fields, maxlen, approximate⟩], lastId := id })

/-- Removes the entry whose identifier is written so; those to whom it was handed keep it
pending. -/
def erase (s : Stream) (id : String) : Stream :=
  { s with entries := s.entries.filter (·.id.text ≠ id) }

/-- The group of that name. -/
def group? (s : Stream) (name : String) : Option Group := s.groups.find? (·.name = name)

/-- Puts a changed group in the place of the one of its name. -/
def putGroup (s : Stream) (g : Group) : Stream :=
  { s with groups := s.groups.map fun h => if h.name = g.name then g else h }

end Stream

namespace Group

/-- Files an entry among the pending ones, in order. -/
def file (p : Pending) : List Pending → List Pending
  | [] => [p]
  | q :: rest => if p.id.lt q.id then p :: q :: rest else q :: file p rest

/-- Hands over new entries to a consumer. -/
def hand (g : Group) (consumer : String) (now : Instant) (ids : List EntryId) : Group :=
  { g with
    last := ids.getLastD g.last
    pending := ids.foldl (fun ps id => file ⟨id, consumer, now.milliseconds, 1⟩ ps) g.pending }

/-- Settles the entry whose identifier is written so. -/
def acknowledge (g : Group) (id : String) : Group :=
  { g with pending := g.pending.filter (·.id.text ≠ id) }

/-- The pending entries of one consumer. -/
def ownedBy (g : Group) (consumer : String) : List Pending :=
  g.pending.filter (·.owner = consumer)

/-- The pending entries that nobody has been given for at least so many milliseconds. -/
def idleFor (g : Group) (now : Instant) (least : Int) : List Pending :=
  g.pending.filter fun p => p.since + least ≤ now.milliseconds

end Group

end EventRelay
