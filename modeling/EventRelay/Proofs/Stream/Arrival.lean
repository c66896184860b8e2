import EventRelay.Consumer
import EventRelay.Proofs.Consumer.Letters

/-!
# What is sent arrives

Key, payload and headers of a message share one list of fields, and only a mark keeps the headers
apart from the other two.  That is enough whatever the headers are called: no two fields have one
name, and whoever reads the entry of a message gets the message back.  So does whoever reads a dead
letter, and its headers tell the key under which the delivery that was given up is recorded.

* `nodup_ofMessage`: headers with different names are fields with different names.
* `Arrives`: a message is sent, and read as a delivery.
* `arrives_send`: every message arrives.
* `eq_deadLetter_of_advance`: what a run with retries sends is the dead letter of its delivery.
* `sent_is_delivered`: both together.
-/

namespace EventRelay

/-! ## Fields -/

namespace Fields

/-- A field that holds a header has a name that begins with the mark. -/
theorem mark_ne {name other : String} (h : other.toList.head? ≠ some 'h') :
    headerMark ++ name ≠ other := by
  rintro rfl
  exact h (by simp [headerMark])

/-- Headers with different names are fields with different names, and none is called like the key or
the payload. -/
theorem nodup_ofMessage {key payload : String} {headers : List (String × String)}
    (h : (headers.map (·.1)).Nodup) : ((ofMessage key payload headers).map (·.1)).Nodup := by
  have hnames : (headers.map fun x => (headerMark ++ x.1, x.2)).map (·.1) =
      (headers.map (·.1)).map (headerMark ++ ·) := by
    rw [List.map_map, List.map_map]
    rfl
  have hmarked : ((headers.map (·.1)).map (headerMark ++ ·)).Nodup :=
    List.Pairwise.map _ (fun _ _ hne heq => hne ((String.append_right_inj _).mp heq)) h
  have hapart {other : String} (hother : other.toList.head? ≠ some 'h') :
      other ∉ (headers.map (·.1)).map (headerMark ++ ·) := by
    intro hmem
    obtain ⟨name, -, hname⟩ := List.mem_map.mp hmem
    exact mark_ne hother hname
  unfold ofMessage
  rw [List.map_cons, List.map_cons, hnames, List.nodup_cons, List.nodup_cons, List.mem_cons, not_or]
  have hkey : "key".toList.head? ≠ some 'h' := by decide
  have hpayload : "payload".toList.head? ≠ some 'h' := by decide
  exact ⟨⟨by simp, hapart hkey⟩, hapart hpayload, hmarked⟩

end Fields

/-! ## Arrivals -/

/-- A message is sent, and it is read as this delivery. -/
structure Arrives (b : Broker) (m : Message) (now : Instant) (ss : Streams) (x : Delivery)
    (e : Entry) (ss' : Streams) : Prop where
  /-- The broker takes it, and gives its coordinates back. -/
  sent : b.send m now ss = .ok (⟨x.topic, x.partition, x.offset⟩, ss')
  /-- Its entry is the last one of the stream of its partition. -/
  stored : ss'.entriesOf (streamName x.topic x.partition) =
    ss.entriesOf (streamName x.topic x.partition) ++ [e]
  /-- The offset is the identifier of the entry. -/
  offset : e.id.text = x.offset
  /-- Different headers are in different fields. -/
  apart : (m.headers.map (·.1)).Nodup → (e.fields.map (·.1)).Nodup
  /-- Whoever reads the fields of the entry reads the delivery. -/
  read : Delivery.ofFields x.topic x.partition e.id.text e.fields = x
  /-- A consumer that comes to the entry gives the delivery to its callback. -/
  handed : ∀ cfg : ConsumerConfig, cfg.topic = x.topic → ∀ mode source rest acked,
    (Consumer.next cfg x.partition mode source ((e.id.text, some e.fields) :: rest) acked).request =
      .handle x

section arrival

variable {b : Broker} (m : Message) (now : Instant) (ss : Streams)

/-- The entry as which a broker takes a message. -/
def takenAs (b : Broker) (partition : Int) : Entry where
  id := (ss.append (streamName m.topic partition) now (.ofMessage m.key m.payload m.headers)
    b.maxlen true).1
  fields := .ofMessage m.key m.payload m.headers
  maxlen := b.maxlen
  approximate := true

/-- A message whose key has a partition arrives there. -/
theorem arrives_of_partitionFor {partition : Int}
    (hp : partitionFor m.key b.partitions = .ok partition) :
    Arrives b m now ss
      ⟨m.topic, partition, (takenAs m now ss b partition).id.text, m.payload, some m.key, m.headers⟩
      (takenAs m now ss b partition) (b.accept m partition now ss).2 where
  sent := by
    unfold Broker.send
    rw [hp]
    rfl
  stored := Streams.entriesOf_append ss _ now _ b.maxlen true
  offset := rfl
  apart := Fields.nodup_ofMessage
  read := Delivery.ofFields_ofMessage _ _ _ _ _ _
  handed cfg hcfg mode source rest acked := by
    have hread := Delivery.ofFields_ofMessage cfg.topic partition
      (takenAs m now ss b partition).id.text m.key m.payload m.headers
    rw [hcfg] at hread
    rw [← hread, ← hcfg]
    rfl

/-- Every message arrives, with the topic, key, payload and headers that it was sent with. -/
theorem arrives_send (hn : 1 ≤ b.partitions) :
    ∃ partition offset e ss', 0 ≤ partition ∧ partition < b.partitions ∧
      Arrives b m now ss ⟨m.topic, partition, offset, m.payload, some m.key, m.headers⟩ e ss' := by
  have hsome : ∃ partition, partitionFor m.key b.partitions = .ok partition := by
    unfold partitionFor
    rw [if_neg (by omega)]
    exact ⟨_, rfl⟩
  obtain ⟨partition, hp⟩ := hsome
  obtain ⟨hnonneg, hlt⟩ := mem_range_of_partitionFor hn hp
  exact ⟨partition, _, _, _, hnonneg, hlt, arrives_of_partitionFor m now ss hp⟩

end arrival

/-! ## Dead letters -/

/-- The key that the headers of a dead letter tell: the coordinates of the delivery that was given
up, joined by dashes. -/
def Delivery.originalKey? (x : Delivery) : Option String := do
  let topic ← x.header? "original_topic"
  let partition ← x.header? "original_partition"
  let offset ← x.header? "original_offset"
  return "-".intercalate [topic, partition, offset]

/-- What a run with retries sends is the dead letter of its delivery. -/
theorem eq_deadLetter_of_advance {policy : RetryPolicy} {ending : String} {d : Delivery}
    {state state' : RetryState} {response : Except Failure Unit} {m : Message}
    (h : Retry.advance policy ending d state response = (state', .send m)) :
    ∃ cause, m = Retry.deadLetter policy ending d cause := by
  unfold Retry.advance at h
  split at h
  · cases h
  · split at h
    · cases h
    · split at h
      · cases h
      · cases h
        exact ⟨_, rfl⟩
  · cases h
  · cases h
  · cases h

/-- The headers of a dead letter tell the key of its delivery, whatever the cause is called. -/
theorem originalKey?_deadLetter (policy : RetryPolicy) (ending : String) (d : Delivery)
    (cause : Failure) {x : Delivery}
    (hheaders : x.headers = (Retry.deadLetter policy ending d cause).headers) :
    x.originalKey? = some d.eventKey := by
  have htopic : x.header? "original_topic" = some d.topic := by
    simp [Delivery.header?, hheaders, Retry.deadLetter]
  have hpartition : x.header? "original_partition" = some (toString d.partition) := by
    simp [Delivery.header?, hheaders, Retry.deadLetter]
  have hoffset : x.header? "original_offset" = some d.offset := by
    simp [Delivery.header?, hheaders, Retry.deadLetter]
  unfold Delivery.originalKey?
  rw [htopic, hpartition, hoffset]
  rfl

/-- Every message is delivered as it was sent, whatever its headers are called.  So is the dead
letter of a delivery that a run with retries gives up: it is delivered from the dead-letter topic
with the payload of that delivery, and it tells its key. -/
theorem sent_is_delivered {b : Broker} (hn : 1 ≤ b.partitions) (now : Instant) (ss : Streams) :
    (∀ m : Message, ∃ partition offset e ss', 0 ≤ partition ∧ partition < b.partitions ∧
      Arrives b m now ss ⟨m.topic, partition, offset, m.payload, some m.key, m.headers⟩ e ss') ∧
    ∀ policy ending d state response state' m,
      Retry.advance policy ending d state response = (state', .send m) →
      ∃ x e ss', Arrives b m now ss x e ss' ∧ x.topic = deadLetterTopic d.topic ending ∧
        x.payload = d.payload ∧ x.originalKey? = some d.eventKey := by
  refine ⟨fun m => arrives_send m now ss hn, fun policy ending d state response state' m h => ?_⟩
  obtain ⟨cause, rfl⟩ := eq_deadLetter_of_advance h
  obtain ⟨partition, offset, e, ss', -, -, harrives⟩ :=
    arrives_send (Retry.deadLetter policy ending d cause) now ss hn
  exact ⟨_, e, ss', harrives, rfl, rfl, originalKey?_deadLetter policy ending d cause rfl⟩

/-- A message whose headers are called like its other fields. -/
def misnamed : Message :=
  ⟨"users", "7", "text", [("", "0"), ("key", "8"), ("payload", "other"), ("h:key", "9")]⟩

/-- It is delivered with its own key and payload, and so is its dead letter when it was tried for
the last time. -/
theorem sent_is_delivered_of_misnamed :
    (∃ partition offset e ss', Arrives ⟨2, none⟩ misnamed 0 []
      ⟨"users", partition, offset, "text", some "7", misnamed.headers⟩ e ss') ∧
    ∃ m x e ss', Arrives ⟨2, none⟩ m 0 [] x e ss' ∧ x.topic = "users.DLT" ∧ x.payload = "text" ∧
      x.originalKey? = some "users-1-5-0" := by
  have hn : 1 ≤ (⟨2, none⟩ : Broker).partitions := by decide
  obtain ⟨hall, hletters⟩ := sent_is_delivered hn 0 []
  obtain ⟨partition, offset, e, ss', -, -, harrives⟩ := hall misnamed
  obtain ⟨x, e', ss'', hletter⟩ := hletters ⟨3, ⟨0, 1⟩⟩ ".DLT"
    ⟨"users", 1, "5-0", "text", some "7", misnamed.headers⟩ (.calling 3)
    (.error (.raised "ValueError" "original_topic: no such key")) _ _ rfl
  exact ⟨⟨partition, offset, e, ss', harrives⟩, _, x, e', ss'', hletter⟩

end EventRelay
