import EventRelay.Consumer
import EventRelay.Proofs.Consumer.Letters
import EventRelay.Proofs.Handler.Reaction
import EventRelay.Proofs.Publisher.AtLeastOnce
import EventRelay.Proofs.Service.ChangeAndEvent

/-!
# What one service announces is what the other applies

The way of a change of a user from the call that makes it to the tasks of that user.  The call
appends a row; a tick sends the row to a stream; a consumer reads the entry there and gives its
handler a delivery; the handler reads the envelope in it and does what a change of that kind of that
user asks for.  The stages meet at two descriptions: `Announces` says what is known of the row
wherever it came from, and `TellsOf` what is known of a payload however it came.

* `Handler.applies_of_tellsOf`: what the handler does with a payload that tells of a change.
* `Publisher.posting_lands`: where the entry of a row is.
* `announced_is_applied`: the whole way.

A row is found in a run of publishers by what it says: under which identifier it was appended there
does not matter.
-/

namespace EventRelay

/-! ## The handler -/

namespace Handler

open Work

/-- Whenever it is read, the payload is an envelope of a change of that kind of that user. -/
def TellsOf (kind : ChangeKind) (user : Int) (payload : String) : Prop :=
  ∀ now, ∃ event, UserEvent.ofWire now payload = .ok event ∧ event.kind? = some kind ∧
    event.userId = user

/-- A change of a user has been enacted.  If the user was deleted then the tasks of the user are
gone, and every other row is as it was; the delivery is recorded; and of the cache only the entry of
the user is gone. -/
structure Enacted (kind : ChangeKind) (user : Int) (eventKey : String) (s t : Session) : Prop where
  /-- The tables. -/
  stored : ∃ row : LedgerRow, row.eventKey = eventKey ∧ t.stored =
    { s.stored with
      tasks := if kind = .deleted then s.stored.tasks.filter (·.userId ≠ user) else s.stored.tasks
      ledger := s.stored.ledger ++ [row] }
  /-- The cache. -/
  cache : t.cache = { s.cache with entries := s.cache.entries.filter (·.1 ≠ user) }

/-- What the handler does with a delivery of a change of a user, whether it accepts free text or
not. -/
structure Applies (kind : ChangeKind) (user : Int) (d : Delivery) : Prop where
  /-- It reads the envelope. -/
  reads : TellsOf kind user d.payload
  /-- It does what the envelope says, and does not take the payload for a free text. -/
  follows : ∀ legacy s, ∃ event : UserEvent, event.kind? = some kind ∧ event.userId = user ∧
    (applyPayload legacy d.payload).follow s = (applyEvent event).follow s
  /-- A delivery that is new is processed, and then the change has been enacted; or an operation
  raised, and then nothing is stored. -/
  handles : ∀ legacy s, s.script.IsHonest → s.stored.isRecorded d.eventKey = false →
    let outcome := (handle legacy d).run s
    (outcome.1 = .ok .processed ∧ Enacted kind user d.eventKey s outcome.2) ∨
      (s.script ≠ .none ∧ outcome.1 ≠ .ok .processed ∧ outcome.2.stored = s.stored)

variable {kind : ChangeKind} {user : Int}

/-- The reaction to a change of a user. -/
def changed (kind : ChangeKind) (user : Int) : Reaction :=
  match kind with
  | .deleted => .remove user
  | .created => .forget user
  | .updated => .forget user

/-- Only a deletion removes tasks, those of the user. -/
theorem onTables_changed (d : Database) :
    (changed kind user).onTables d =
      { d with
        tasks := if kind = .deleted then d.tasks.filter (·.userId ≠ user) else d.tasks } := by
  cases kind with
  | deleted => exact Reaction.onTables_remove d user
  | created => exact Reaction.onTables_forget d user
  | updated => exact Reaction.onTables_forget d user

/-- Any change of a user makes the cache forget the user. -/
theorem onCache_changed (c : Cache) : (changed kind user).onCache c = c.evict user := by
  cases kind with
  | deleted => exact Reaction.onCache_remove c user
  | created => exact Reaction.onCache_forget c user
  | updated => exact Reaction.onCache_forget c user

/-- A payload that tells of a change makes the handler react to that change. -/
theorem reaction_of_tellsOf {payload : String} (hfits : Scalar.fitsWord user = true)
    (h : TellsOf kind user payload) (legacy : Bool) :
    reaction legacy payload = changed kind user := by
  obtain ⟨event, hread, hkind, rfl⟩ := h (.ofInstant .origin)
  unfold reaction Reaction.ofReading
  rw [hread]
  show Reaction.ofEvent event = _
  unfold Reaction.ofEvent Reaction.removal changed
  rw [hkind, if_pos hfits]
  cases kind <;> rfl

/-- So the handler applies the change, when the payload is delivered. -/
theorem applies_of_tellsOf {d : Delivery} (hfits : Scalar.fitsWord user = true)
    (h : TellsOf kind user d.payload) : Applies kind user d := by
  constructor
  case reads => exact h
  case follows =>
    intro legacy s
    obtain ⟨event, hread, hkind, huser⟩ := h (.ofInstant s.now)
    refine ⟨event, hkind, huser, ?_⟩
    unfold applyPayload
    rw [follow_bind, follow_now]
    dsimp only
    rw [hread]
  case handles =>
    intro legacy s hhonest hnew
    have hreaction := reaction_of_tellsOf hfits h legacy
    cases handled_run hhonest legacy d with
    | known hrecorded =>
      rw [hnew] at hrecorded
      cases hrecorded
    | refused _ hrefuse =>
      rw [hreaction] at hrefuse
      cases kind <;> cases hrefuse
    | failed hscripted hr hstored => exact .inr ⟨hscripted, hr, hstored⟩
    | done _ _ hr row hkey hstored hcache =>
      rw [hreaction, onTables_changed] at hstored
      rw [hreaction, onCache_changed] at hcache
      exact .inl ⟨hr, ⟨row, hkey, hstored⟩, hcache⟩

end Handler

/-! ## Publishers -/

namespace Publisher

/-- The entry of a row is in one of the streams of the topic of the row, with the key and the
payload of the row. -/
theorem posting_lands {pubs : Set PublisherConfig} {b : Broker} {s : Relay} (hn : 1 ≤ b.partitions)
    (hrun : Reachable pubs b s) {i : Nat} {row : OutboxRow} (hrow : s.births[i]? = some row)
    {e : Posting} (he : e ∈ s.journal) (horigin : e.origin = some i) :
    ∃ p, 0 ≤ p ∧ p < b.partitions ∧ e.stream = streamName row.topic p ∧
      e.fields = .ofMessage row.routingKey row.payload [] ∧
      e.fields ∈ s.streams.contents e.stream := by
  obtain ⟨row', p, cfg, hrow', hp, hstream, hfields, -⟩ :=
    (filed_of_reachable hrun).posted e he i horigin
  rw [hrow] at hrow'
  cases hrow'
  obtain ⟨hnonneg, hlt⟩ := mem_range_of_partitionFor hn hp
  exact ⟨p, hnonneg, hlt, hstream, hfields, mem_contents_of_mem_journal hrun he⟩

end Publisher

/-! ## The whole way -/

namespace Service

open Publisher

/-- Whether a call changes a user. -/
def Call.changesUser : Call → Bool
  | .createUser _ _ _ => true
  | .updateUser _ _ _ => true
  | .deleteUser _ => true
  | .createTask _ _ _ _ => false
  | .updateTask _ _ _ _ => false
  | .deleteTask _ => false

/-- A call that changes a user is about a user. -/
theorem exists_user_of_asks {d : Database} {c : Call} {kind : ChangeKind} {e : Entity}
    (h : Asks d c kind e) (hcall : c.changesUser = true) : ∃ u, e = .user u := by
  cases h with
  | createUser => exact ⟨_, rfl⟩
  | updateUser => exact ⟨_, rfl⟩
  | deleteUser => exact ⟨_, rfl⟩
  | createTask => cases hcall
  | updateTask => cases hcall
  | deleteTask => cases hcall

/-- A row that announces a change of a user tells the handler of it. -/
theorem tellsOf_of_announces {topics : Topics} {kind : ChangeKind} {u : User} {row : OutboxRow}
    (h : Announces topics kind (.user u) row) : Handler.TellsOf kind u.id row.payload := by
  intro now
  obtain ⟨event, hevent, htells⟩ := h.payload now
  rw [eventOf?_user h.eventType] at hevent
  rcases hread : UserEvent.ofWire now row.payload with problems | event'
  · rw [hread] at hevent
    cases hevent
  · rw [hread] at hevent
    cases hevent
    cases htells with
    | user hkind hid => exact ⟨event', rfl, hkind, hid⟩

/-- An entry reaches a consumer of these settings as a delivery of a change of a user: it is in one
of the streams that the consumer reads, and when it comes up there, in whichever way it was read and
whatever comes after it, the handler is given the delivery of that payload, and applies it. -/
def Reaches (cfg : ConsumerConfig) (kind : ChangeKind) (user : Int) (payload : String)
    (ss : Streams) (e : Posting) : Prop :=
  ∃ p, 0 ≤ p ∧ p < cfg.partitions ∧ e.stream = cfg.stream p ∧ e.fields ∈ ss.contents e.stream ∧
    ∀ mode source offset rest acked,
      let d : Delivery := ⟨cfg.topic, p, offset, payload, some (toString user), []⟩
      (Consumer.next cfg p mode source ((offset, some e.fields) :: rest) acked).request =
        .handle d ∧ Handler.Applies kind user d

/-- A call that changes a user and returns has stored the change and one row.  In any run of
publishers over a broker with at least one partition, every entry that was sent for that row reaches
the consumer of the topic: it is read there as what it was announced as, and is applied so. -/
theorem announced_is_applied {topics : Topics} {v : Visit} (hsound : v.IsSound topics)
    (hkeyed : v.session.stored.Keyed) (hwords : v.session.stored.HasWords)
    (hcall : v.call.changesUser = true) {result : Option Entity} {t : Session}
    (houtcome : v.outcome topics = (.ok result, t)) :
    ∃ kind u d row, Asks v.session.stored v.call kind (.user u) ∧
      Alters kind (.user u) v.session.stored d ∧
      t.stored = { d with outbox := v.session.stored.outbox ++ [row] } ∧
      ∀ (pubs : Set PublisherConfig) (b : Broker) (s : Relay), 1 ≤ b.partitions →
        Reachable pubs b s → ∀ i id, s.births[i]? = some { row with id } →
          ∀ e ∈ s.journal, e.origin = some i →
            ∀ cfg : ConsumerConfig, cfg.topic = topics.users → cfg.partitions = b.partitions →
              Reaches cfg kind u.id row.payload s.streams e := by
  have hserved := served hsound hkeyed hwords
  have hafter := hsound.words
  rw [houtcome] at hserved hafter
  cases hserved with
  | returned kind entity d row t hasks halters hannounces hstored =>
    obtain ⟨u, rfl⟩ := exists_user_of_asks hasks hcall
    have hfits : Scalar.fitsWord u.id = true := by
      refine hasWords_of_alters halters hwords ?_
      dsimp only at hafter
      rw [hstored] at hafter
      exact ⟨hafter.users, hafter.tasks⟩
    refine ⟨kind, u, d, row, hasks, halters, ?_, ?_⟩
    · rw [hstored, outbox_of_alters halters]
    · intro pubs b s hn hrun i id hrow e he horigin cfg htopic hpartitions
      obtain ⟨p, hnonneg, hlt, hstream, hfields, hthere⟩ := posting_lands hn hrun hrow he horigin
      have htext : e.fields = .ofMessage (toString u.id) row.payload [] := by
        rw [hfields]
        unfold OutboxRow.routingKey
        dsimp only
        rw [hannounces.key]
        rfl
      refine ⟨p, hnonneg, hpartitions ▸ hlt, ?_, hthere, fun mode source offset rest acked => ?_⟩
      · rw [hstream]
        show streamName row.topic p = streamName cfg.topic p
        rw [hannounces.topic, htopic]
        rfl
      · refine ⟨?_, Handler.applies_of_tellsOf hfits (tellsOf_of_announces hannounces)⟩
        rw [← Delivery.ofFields_ofMessage, htext]
        rfl

/-! ## A deletion -/

/-- A user with an address beyond ASCII. -/
def leaver : User := ⟨7, "ann.å@example.com", none, none, .origin, .origin⟩

/-- The deletion of the user, who is not the only one. -/
def parting : Visit where
  call := .deleteUser 7
  session :=
    { newDesk with
      stored :=
        { Database.empty with
          users := [leaver, ⟨8, "bob@example.com", none, none, .origin, .origin⟩] } }

/-- The row that announces the deletion. -/
def farewell : OutboxRow := announcement ⟨"users", "tasks"⟩ .deleted (.user leaver) .origin []

/-- The row is appended where a publisher with three partitions looks after it. -/
def farewellRelay : Relay :=
  (start emptyDesk).append farewell.eventType farewell.topic farewell.payload farewell.key
    farewell.createdAt

/-- A consumer of the topic. -/
def reader : ConsumerConfig := ⟨"users", "tasks", "first", 3, 10, 5000, 60000⟩

/-- A desk of the tasks service: both users have a task, and both are known. -/
def sharedDesk : Session :=
  { newDesk with
    stored :=
      { Database.empty with
        tasks := [7, 8].map fun user => ⟨user, user, "t", none, "TODO", .origin, .origin⟩ }
    cache := { newDesk.cache with entries := [7, 8].map fun user => (user, ⟨true, .origin⟩) } }

/-- A tick sends the row. -/
theorem exists_farewell_posting : ∃ s e, Reachable {keepingPublisher} ⟨3, none⟩ s ∧
    s.births = [farewell] ∧ e ∈ s.journal ∧ e.origin = some 0 := by
  have hplays : (plays ⟨3, none⟩ farewellRelay [.claim keepingPublisher [], .land 0 0]).map
      (fun s => (s.births, s.journal.map (·.origin))) = some ([farewell], [some 0]) := by
    decide +kernel
  obtain ⟨s, hs, hseen⟩ := Option.map_eq_some_iff.mp hplays
  obtain ⟨hbirths, horigins⟩ := Prod.mk.inj hseen
  obtain ⟨e, rest, hjournal, horigin, -⟩ := List.map_eq_cons_iff.mp horigins
  refine ⟨s, e, ?_, hbirths, ?_, horigin⟩
  · refine reachable_of_plays ?_ (.step (.start emptyDesk) (.append _ _ _ _ _ _)) hs
    simp [Move.Uses, FairSends]
  · rw [hjournal]
    exact List.mem_cons_self

/-- The row is sent, and its delivery takes the task and the entry of the user away and no other. -/
theorem announced_is_applied_of_farewell :
    let topics : Topics := ⟨"users", "tasks"⟩
    parting.IsSound topics ∧ (parting.outcome topics).2.stored.outbox = [farewell] ∧
    ∃ s e, Reachable {keepingPublisher} ⟨3, none⟩ s ∧ s.births = [farewell] ∧ e ∈ s.journal ∧
      e.origin = some 0 ∧
      ∃ p d, 0 ≤ p ∧ p < 3 ∧ e.stream = streamName "users" p ∧
        (Consumer.next reader p .endless .fresh [("0-1", some e.fields)] 0).request = .handle d ∧
        ∀ legacy,
          let outcome := (Handler.handle legacy d).run sharedDesk
          outcome.1 = .ok .processed ∧ outcome.2.stored.tasks.map (·.userId) = [8] ∧
            outcome.2.cache.entries.map (·.1) = [8] := by
  intro topics
  obtain ⟨s, e, hreach, hbirths, he, horigin⟩ := exists_farewell_posting
  have hsound : parting.IsSound topics :=
    isSound_of_isInRange DbScript.within_none (by decide +kernel)
  have hreturned : (parting.outcome topics).1.isOk = true := by decide +kernel
  have hrow : (parting.outcome topics).2.stored.outbox = [farewell] := by decide +kernel
  refine ⟨hsound, hrow, s, e, hreach, hbirths, he, horigin, ?_⟩
  have hkeyed : parting.session.stored.Keyed := ⟨by decide, by decide⟩
  have hwords : parting.session.stored.HasWords := ⟨by decide, by decide⟩
  rcases houtcome : parting.outcome topics with ⟨error | result, t⟩
  · rw [houtcome] at hreturned
    cases hreturned
  obtain ⟨kind, u, d, row, hasks, -, hstored, hway⟩ :=
    announced_is_applied hsound hkeyed hwords rfl houtcome
  have hsame : row = farewell := by
    rw [houtcome, hstored] at hrow
    exact List.singleton_inj.mp hrow
  obtain ⟨rfl, huser⟩ : kind = .deleted ∧ u.id = 7 := by
    have hcall : parting.call = .deleteUser 7 := rfl
    generalize parting.call = call at hasks hcall
    cases hasks with
    | deleteUser => exact ⟨rfl, Call.deleteUser.inj hcall⟩
    | createUser => cases hcall
    | updateUser => cases hcall
  have hborn : s.births[0]? = some { row with id := row.id } := by
    rw [hbirths, hsame]
    rfl
  obtain ⟨p, hnonneg, hlt, hstream, -, hreaches⟩ :=
    hway {keepingPublisher} ⟨3, none⟩ s (by decide) hreach 0 row.id hborn e he horigin reader
      rfl rfl
  obtain ⟨hrequest, happlies⟩ := hreaches .endless .fresh "0-1" [] 0
  refine ⟨p, _, hnonneg, hlt, hstream, hrequest, fun legacy => ?_⟩
  rcases happlies.handles legacy sharedDesk DbScript.within_none rfl with
    ⟨hprocessed, ⟨ledgerRow, -, htables⟩, hcache⟩ | ⟨hscripted, -⟩
  · refine ⟨hprocessed, ?_, ?_⟩
    · rw [htables, huser]
      rfl
    · rw [hcache, huser]
      rfl
  · exact absurd rfl hscripted

end Service

end EventRelay
