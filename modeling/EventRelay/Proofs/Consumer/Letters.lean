import EventRelay.Proofs.Stream.Members
import EventRelay.Retry

/-!
# Dead letters

A message is read as it was sent, so a dead letter has the payload of the delivery that was given up
and tells where that came from.

* `ofFields_ofMessage`: what is sent is what is delivered.
* `IsLetterFor`: an entry is the dead letter of a delivery.
* `exists_letter`: an accepted dead letter is there.
-/

namespace EventRelay

namespace Fields

/-- A marked field is read as the header that it was written for. -/
theorem header?_mark (name value : String) :
    header? (headerMark ++ name, value) = some (name, value) := by
  have hlist : (headerMark ++ name).toList = 'h' :: ':' :: name.toList := by
    simp [headerMark]
  unfold header?
  rw [hlist]
  simp

/-- The headers of a message are those that it was sent with. -/
theorem filterMap_header? (key payload : String) (headers : List (String × String)) :
    (ofMessage key payload headers).filterMap header? = headers := by
  have hkey : header? ("key", key) = none := by
    simp [header?]
  have hpayload : header? ("payload", payload) = none := by
    simp [header?]
  unfold ofMessage
  rw [List.filterMap_cons_none hkey, List.filterMap_cons_none hpayload]
  induction headers with
  | nil => rfl
  | cons h rest ih =>
    rw [List.map_cons, List.filterMap_cons_some (header?_mark h.1 h.2), ih]

end Fields

namespace Delivery

/-- What is sent is what is delivered. -/
theorem ofFields_ofMessage (topic : String) (partition : Int) (offset key payload : String)
    (headers : List (String × String)) :
    ofFields topic partition offset (Fields.ofMessage key payload headers) =
      ⟨topic, partition, offset, payload, some key, headers⟩ := by
  unfold ofFields
  rw [Fields.filterMap_header?]
  simp [Fields.get?, Fields.ofMessage]

end Delivery

namespace Consumer

/-- Whether an entry of a partition of a topic is the dead letter of a delivery: it has the payload
of the delivery and its coordinates in the headers. -/
def IsLetterFor (topic : String) (partition : Int) (e : Entry) (d : Delivery) : Prop :=
  let letter := Delivery.ofFields topic partition e.id.text e.fields
  letter.payload = d.payload ∧ letter.header? "original_topic" = some d.topic ∧
    letter.header? "original_partition" = some (toString d.partition) ∧
    letter.header? "original_offset" = some d.offset

/-- An accepted message is in its stream. -/
theorem exists_accepted (b : Broker) (m : Message) (partition : Int) (now : Instant)
    (ss : Streams) :
    ∃ e ∈ ((b.accept m partition now ss).2.named (streamName m.topic partition)).entries,
      e.fields = .ofMessage m.key m.payload m.headers := by
  have hself := Streams.named_append_self ss (streamName m.topic partition) now
    (.ofMessage m.key m.payload m.headers) b.maxlen true
  unfold Broker.accept
  dsimp only
  rw [hself]
  exact ⟨_, List.mem_append_right _ (List.mem_singleton.mpr rfl), rfl⟩

/-- An accepted dead letter is in a stream of its topic. -/
theorem exists_letter (b : Broker) (policy : RetryPolicy) (ending : String) (d : Delivery)
    (cause : Failure) (partition : Int) (now : Instant) (ss : Streams) :
    ∃ e ∈ ((b.accept (Retry.deadLetter policy ending d cause) partition now ss).2.named
        (streamName (deadLetterTopic d.topic ending) partition)).entries,
      IsLetterFor (deadLetterTopic d.topic ending) partition e d := by
  obtain ⟨e, he, hfields⟩ := exists_accepted b (Retry.deadLetter policy ending d cause) partition
    now ss
  refine ⟨e, he, ?_⟩
  unfold IsLetterFor
  rw [hfields, Delivery.ofFields_ofMessage]
  simp [Delivery.header?, Retry.deadLetter]

end Consumer

end EventRelay
