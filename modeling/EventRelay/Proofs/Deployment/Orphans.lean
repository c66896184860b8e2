import EventRelay.Proofs.Deployment.Play
import EventRelay.Proofs.Existence.Play
import EventRelay.Proofs.Handler.Ends
import EventRelay.Proofs.Publisher.AtLeastOnce
import EventRelay.Proofs.Service.UserEvents

/-!
# Tasks of deleted users

A task may be created for a user who was deleted, as the check of its owner may be answered from the
cache, or without knowing anything.  When the deletion is handled the tasks of the user are removed.
So when everything is published and handled, a task of a deleted user is one that was created after
the deletion had been handled: nothing removes it any more.

* `Told`: for every deletion there is a row that makes the handler remove the tasks of the user.
* `Heard`: a delivery that is recorded was an entry, and its removal is in the history.
* `Recent`: every task was created since the tasks of its owner were removed last.
* `cleared_of_quiescent`: when everything is published and handled, every deletion was handled.
* `no_orphans`: then no task of a deleted user is left, unless one was created too late.
-/

namespace EventRelay

/-! ## Histories -/

/-- A task of the user was created since the tasks of the user were removed last. -/
def GainedSince (history : List Incident) (user : Int) : Prop :=
  ∃ before after, history = before ++ .gained user :: after ∧ .cleared user ∉ after

/-- A task of the user was created after a deletion of the user had been handled. -/
def GainedLate (history : List Incident) (user : Int) : Prop :=
  [.cleared user, .gained user].Sublist history

section histories

variable {history new : List Incident} {user : Int}

/-- A gain stays one as long as the tasks are not removed. -/
theorem GainedSince.append (h : GainedSince history user) (hnew : .cleared user ∉ new) :
    GainedSince (history ++ new) user := by
  obtain ⟨before, after, rfl, hafter⟩ := h
  refine ⟨before, after ++ new, ?_, fun hmem => ?_⟩
  · rw [List.append_assoc, List.cons_append]
  · exact (List.mem_append.mp hmem).elim hafter hnew

/-- A gain among the latest incidents is one, where nothing was removed. -/
theorem gainedSince_of_mem (hgained : .gained user ∈ new) (hnew : .cleared user ∉ new) :
    GainedSince (history ++ new) user := by
  obtain ⟨before, after, rfl⟩ := List.append_of_mem hgained
  refine ⟨history ++ before, after, (List.append_assoc _ _ _).symm, fun hmem => hnew ?_⟩
  exact List.mem_append_right _ (List.mem_cons_of_mem _ hmem)

/-- What was created since the last removal was created after a removal, if there was one. -/
theorem GainedSince.late (h : GainedSince history user) (hcleared : .cleared user ∈ history) :
    GainedLate history user := by
  obtain ⟨before, after, rfl, hafter⟩ := h
  have hbefore : Incident.cleared user ∈ before := by
    rcases List.mem_append.mp hcleared with hmem | hmem
    · exact hmem
    · rcases List.mem_cons.mp hmem with heq | hmem
      · cases heq
      · exact absurd hmem hafter
  exact (List.singleton_sublist.mpr hbefore).append
    (List.singleton_sublist.mpr List.mem_cons_self)

end histories

namespace Service

variable {c : Call} {user : Int}

/-- A call of a service removes no tasks of a user. -/
theorem cleared_notMem_incidents (c : Call) (user : Int) : .cleared user ∉ c.incidents := by
  cases c <;> simp [Call.incidents]

/-- Only the deletion of a user is noted as a departure. -/
theorem eq_of_left_mem (h : .left user ∈ c.incidents) : c = .deleteUser user := by
  cases c <;> simp [Call.incidents] at h
  rw [h]

end Service

namespace Handler

/-- Only the removal of tasks is noted as one. -/
theorem eq_of_cleared_mem {x : Reaction} {user : Int} (h : .cleared user ∈ x.incidents) :
    x = .remove user := by
  cases x <;> simp [Reaction.incidents] at h
  rw [h]

/-- No delivery is noted as a departure. -/
theorem left_notMem_incidents (x : Reaction) (user : Int) : .left user ∉ x.incidents := by
  cases x <;> simp [Reaction.incidents]

end Handler

namespace Deployment

open Service Publisher

variable {p : Deployment} {w w' : Site}

/-! ## Publishers on their own -/

/-- The relay is like one that publishers come to on their own. -/
theorem exists_likeness (h : Reachable p w) :
    ∃ r, Publisher.Reachable p.pubs p.broker r ∧ Likeness w.relay r := by
  induction h with
  | start desk => exact ⟨_, .start _, .refl _⟩
  | step _ hstep ih =>
    obtain ⟨r, hreach, hlike⟩ := ih
    cases effect_of_step hstep with
    | relayed hrelay _ =>
      obtain ⟨r', hstep', hlike'⟩ := step_of_likeness hlike hrelay
      exact ⟨r', .step hreach hstep', hlike'⟩
    | served c kind e d at' _ _ _ hrelay _ =>
      exact ⟨_, .step hreach (.append r _ _ _ _ _), hrelay.trans (hlike.append _ _ _ _ _)⟩
    | processed partition e _ row _ _ hrelay _ => exact ⟨r, hreach, hrelay.trans hlike⟩
    | aside _ hrelay _ => exact ⟨r, hreach, hrelay.trans hlike⟩

/-- Streams are in the order of their identifiers. -/
theorem keeps_of_reachable {pubs : Set PublisherConfig} {b : Broker} {s : Relay}
    (h : Publisher.Reachable pubs b s) (name : String) :
    (s.streams.named name).Keeps (fun _ _ => False) "" := by
  induction h with
  | start desk => exact Stream.keeps_empty name
  | step _ hstep ih =>
    rcases streams_of_step hstep with hsame | ⟨other, fields, maxlen, approximate, happended⟩
    · rw [hsame]
      exact ih
    · rw [happended]
      exact Streams.keeps_append _ _ _ _ _ _ _ ih

/-- No entry goes. -/
theorem entries_of_step {pubs : Set PublisherConfig} {b : Broker} {s s' : Relay}
    (hstep : Publisher.Step pubs b s s') {name : String} {e : Entry}
    (he : e ∈ s.streams.entriesOf name) : e ∈ s'.streams.entriesOf name := by
  rcases streams_of_step hstep with hsame | ⟨other, fields, maxlen, approximate, happended⟩
  · rw [hsame]
    exact he
  · have hgrows : (s.streams.named name).Evolves True (s'.streams.named name) := by
      rw [happended]
      exact Streams.evolves_append _ _ _ _ _ _ _
    rw [Streams.entriesOf_eq] at he ⊢
    exact hgrows.kept trivial e he

/-! ## Rows that tell of deletions -/

/-- For every deletion there is a row that makes the handler remove the tasks of the user. -/
def Told (p : Deployment) (w : Site) : Prop :=
  ∀ user, .left user ∈ w.history → ∃ (i : Nat) (row : OutboxRow),
    w.relay.births[i]? = some row ∧ row.topic = p.topics.users ∧
      Handler.reaction p.legacy row.payload = .remove user

/-- Rows that are added leave it true that deletions are told of. -/
theorem Told.advance (h : Told p w) (hhistory : ∀ user, .left user ∈ w'.history →
    .left user ∈ w.history) {new : List OutboxRow}
    (hbirths : w'.relay.births = w.relay.births ++ new) : Told p w' := by
  intro user hleft
  obtain ⟨i, row, hrow, htold⟩ := h user (hhistory user hleft)
  refine ⟨i, row, ?_, htold⟩
  rw [hbirths]
  exact getElem?_append_of_some hrow new

/-- The row of a deletion makes the handler remove the tasks of the user. -/
theorem reaction_of_deletion {user : Int} {kind : ChangeKind} {e : Entity} {d d' : Database}
    {at' : Instant} {t : Outbox} (hperforms : Performs (.deleteUser user) kind e d d')
    (hdated : at'.wall.isDated = true) :
    (announcement p.topics kind e at' t).topic = p.topics.users ∧
      Handler.reaction p.legacy (announcement p.topics kind e at' t).payload = .remove user := by
  cases hperforms with
  | @deleteUser _ u _ hid hfound =>
    obtain ⟨-, rfl⟩ := mem_of_user? hfound
    have hannounces : Announces p.topics .deleted (.user u)
        (announcement p.topics .deleted (.user u) at' t) := announces_announcement hdated hid
    exact ⟨hannounces.topic,
      Handler.reaction_of_tellsOf hid (tellsOf_of_announces hannounces) p.legacy⟩

/-- Every step leaves a row for every deletion. -/
theorem told_step (h : Told p w) (hstep : Step p w w') : Told p w' := by
  cases effect_of_step hstep with
  | relayed hrelay hhistory =>
    obtain ⟨new, hbirths⟩ := births_of_step hrelay
    exact h.advance (fun user hleft => hhistory ▸ hleft) hbirths
  | served c kind e d at' hperforms hdated _ hrelay hhistory =>
    have hbirths : w'.relay.births =
        w.relay.births ++ [announcement p.topics kind e at' w.relay.table] := hrelay.births
    intro user hleft
    rw [hhistory] at hleft
    rcases List.mem_append.mp hleft with hold | hnew
    · obtain ⟨i, row, hrow, htold⟩ := h user hold
      exact ⟨i, row, hbirths ▸ getElem?_append_of_some hrow _, htold⟩
    · rw [eq_of_left_mem hnew] at hperforms
      refine ⟨w.relay.births.length, announcement p.topics kind e at' w.relay.table, ?_,
        reaction_of_deletion hperforms hdated⟩
      rw [hbirths]
      exact List.getElem?_concat_length
  | processed partition e _ row _ _ hrelay hhistory =>
    refine h.advance (fun user hleft => ?_) (hrelay.births.trans (List.append_nil _).symm)
    rw [hhistory] at hleft
    exact (List.mem_append.mp hleft).resolve_right (Handler.left_notMem_incidents _ _)
  | aside _ hrelay hhistory =>
    exact h.advance (fun user hleft => hhistory ▸ hleft)
      (hrelay.births.trans (List.append_nil _).symm)

/-- In every state of a run there is a row for every deletion. -/
theorem told_of_reachable (h : Reachable p w) : Told p w := by
  induction h with
  | start desk => exact fun user hleft => absurd hleft List.not_mem_nil
  | step _ hstep ih => exact told_step ih hstep

/-! ## Deliveries that are recorded -/

/-- A delivery that is recorded was an entry of the user events, and if the tasks of a user were to
be removed for it then that is in the history. -/
def Heard (p : Deployment) (w : Site) : Prop :=
  ∀ row ∈ w.stored.ledger, ∃ partition e,
    e ∈ w.relay.streams.entriesOf (streamName p.topics.users partition) ∧
    row.eventKey = (p.delivery partition e).eventKey ∧
    ∀ x ∈ (Handler.reaction p.legacy (p.delivery partition e).payload).incidents, x ∈ w.history

/-- Entries and incidents that are added leave it true that records are of deliveries. -/
theorem Heard.advance (h : Heard p w)
    (hentries : ∀ name, ∀ e ∈ w.relay.streams.entriesOf name, e ∈ w'.relay.streams.entriesOf name)
    {new : List Incident} (hhistory : w'.history = w.history ++ new)
    (hrows : ∀ row ∈ w'.stored.ledger, row ∈ w.stored.ledger ∨ ∃ partition e,
      e ∈ w'.relay.streams.entriesOf (streamName p.topics.users partition) ∧
      row.eventKey = (p.delivery partition e).eventKey ∧
      ∀ x ∈ (Handler.reaction p.legacy (p.delivery partition e).payload).incidents, x ∈ new) :
    Heard p w' := by
  intro row hrow
  rw [hhistory]
  rcases hrows row hrow with hold | ⟨partition, e, he, hkey, hnew⟩
  · obtain ⟨partition, e, he, hkey, hheard⟩ := h row hold
    exact ⟨partition, e, hentries _ e he, hkey, fun x hx => List.mem_append_left _ (hheard x hx)⟩
  · exact ⟨partition, e, he, hkey, fun x hx => List.mem_append_right _ (hnew x hx)⟩

/-- Every step leaves records that are of deliveries. -/
theorem heard_step (h : Heard p w) (hstep : Step p w w') : Heard p w' := by
  cases effect_of_step hstep with
  | relayed hrelay hhistory =>
    obtain ⟨outbox, hstored⟩ := stored_of_step hrelay
    have hledger : w'.stored.ledger = w.stored.ledger :=
      (congrArg Database.ledger hstored).trans rfl
    exact h.advance (fun name e he => entries_of_step hrelay he)
      (hhistory.trans (List.append_nil _).symm) fun row hrow => .inl (hledger ▸ hrow)
  | served c kind e d at' hperforms _ hstored hrelay hhistory =>
    have hstreams : w'.relay.streams = w.relay.streams := hrelay.streams
    have hledger : w'.stored.ledger = w.stored.ledger :=
      (congrArg Database.ledger hstored).trans (rest_of_performs hperforms :).2
    exact h.advance (fun name e he => hstreams ▸ he) hhistory fun row hrow => .inl (hledger ▸ hrow)
  | processed partition e he row hkey hstored hrelay hhistory =>
    have hledger : w'.stored.ledger = w.stored.ledger ++ [row] := congrArg Database.ledger hstored
    refine h.advance (fun name e he => hrelay.streams ▸ he) hhistory fun q hq => ?_
    rw [hledger] at hq
    rcases List.mem_append.mp hq with hq | hq
    · exact .inl hq
    · rw [List.mem_singleton.mp hq]
      exact .inr ⟨partition, e, hrelay.streams ▸ he, hkey, fun x hx => hx⟩
  | aside hstored hrelay hhistory =>
    exact h.advance (fun name e he => hrelay.streams ▸ he)
      (hhistory.trans (List.append_nil _).symm) fun row hrow => .inl (hstored ▸ hrow)

/-- In every state of a run what is recorded was delivered. -/
theorem heard_of_reachable (h : Reachable p w) : Heard p w := by
  induction h with
  | start desk => exact fun row hrow => absurd hrow List.not_mem_nil
  | step _ hstep ih => exact heard_step ih hstep

/-! ## Tasks -/

/-- Every task was created since the tasks of its owner were removed last. -/
def Recent (w : Site) : Prop := ∀ t ∈ w.stored.tasks, GainedSince w.history t.userId

/-- A call gives no task to anybody who had none, but to the owner of a new one. -/
theorem owner_of_performs {c : Call} {kind : ChangeKind} {e : Entity} {d d' : Database}
    (h : Performs c kind e d d') {t : Task} (ht : t ∈ d'.tasks) :
    (∃ q ∈ d.tasks, q.userId = t.userId) ∨ .gained t.userId ∈ c.incidents := by
  cases h with
  | createUser h =>
    obtain ⟨address, -, -, -, rfl⟩ := eq_of_addUser h
    exact .inl ⟨t, ht, rfl⟩
  | updateUser _ h =>
    obtain ⟨old, -, -, -, rfl⟩ := eq_of_updateUser h
    exact .inl ⟨t, ht, rfl⟩
  | deleteUser _ h => exact .inl ⟨t, ht, rfl⟩
  | createTask _ h =>
    obtain ⟨name, -, rfl, rfl⟩ := eq_of_addTask h
    rcases List.mem_append.mp ht with ht | ht
    · exact .inl ⟨t, ht, rfl⟩
    · rw [List.mem_singleton.mp ht]
      exact .inr List.mem_cons_self
  | updateTask _ h =>
    obtain ⟨old, hold, -, name, -, rfl, rfl⟩ := eq_of_updateTask h
    obtain ⟨q, hq, rfl⟩ := List.mem_map.mp ht
    by_cases hid : q.id = old.id
    · rw [if_pos hid]
      exact .inl ⟨old, hold, rfl⟩
    · rw [if_neg hid]
      exact .inl ⟨q, hq, rfl⟩
  | deleteTask _ h => exact .inl ⟨t, (List.mem_filter.mp ht).1, rfl⟩

/-- After every step tasks are those that were created since the last removal. -/
theorem recent_step (h : Recent w) (hstep : Step p w w') : Recent w' := by
  intro t ht
  cases effect_of_step hstep with
  | relayed hrelay hhistory =>
    obtain ⟨outbox, hstored⟩ := stored_of_step hrelay
    have htasks : w'.stored.tasks = w.stored.tasks :=
      (congrArg Database.tasks hstored).trans rfl
    rw [hhistory]
    exact h t (htasks ▸ ht)
  | served c kind e d at' hperforms _ hstored _ hhistory =>
    have htasks : w'.stored.tasks = d.tasks := (congrArg Database.tasks hstored).trans rfl
    rw [hhistory]
    rcases owner_of_performs hperforms (htasks ▸ ht) with ⟨q, hq, howner⟩ | hgained
    · rw [← howner]
      exact (h q hq).append (cleared_notMem_incidents c q.userId)
    · exact gainedSince_of_mem hgained (cleared_notMem_incidents c t.userId)
  | processed partition e _ row _ hstored _ hhistory =>
    have htasks : w'.stored.tasks = w.stored.tasks.filter
        (Handler.reaction p.legacy (p.delivery partition e).payload).keeps :=
      congrArg Database.tasks hstored
    rw [htasks] at ht
    obtain ⟨hold, hkeeps⟩ := List.mem_filter.mp ht
    rw [hhistory]
    refine (h t hold).append fun hcleared => ?_
    -- a task of a user whose tasks are removed does not stay
    rw [Handler.eq_of_cleared_mem hcleared] at hkeeps
    simp [Handler.Reaction.keeps] at hkeeps
  | aside hstored _ hhistory =>
    rw [hhistory]
    exact h t (hstored ▸ ht)

/-- In every state of a run tasks are those that were created since the last removal. -/
theorem recent_of_reachable (h : Reachable p w) : Recent w := by
  induction h with
  | start desk => exact fun t ht => absurd ht List.not_mem_nil
  | step _ hstep ih => exact recent_step ih hstep

/-! ## When everything is published and handled -/

/-- Everything is published, and all user events are handled. -/
structure Quiescent (p : Deployment) (w : Site) : Prop where
  /-- Every row of the outbox is published. -/
  published : ∀ r ∈ w.relay.table, r.status = .published
  /-- Every entry of the user events is recorded as handled. -/
  handled : ∀ partition, ∀ e ∈ w.relay.streams.entriesOf (streamName p.topics.users partition),
    w.stored.isRecorded (p.delivery partition e).eventKey = true

/-- Every row that was ever appended has an entry on its topic, with its payload. -/
theorem exists_entry_of_quiescent (hkeep : Outlasting p.pubs) (h : Reachable p w)
    (hquiet : Quiescent p w) {i : Nat} {row : OutboxRow} (hrow : w.relay.births[i]? = some row) :
    ∃ partition e, e ∈ w.relay.streams.entriesOf (streamName row.topic partition) ∧
      e.fields = .ofMessage row.routingKey row.payload [] := by
  obtain ⟨r, hreach, hlike⟩ := exists_likeness h
  have hposted : r.Posted i := by
    rcases accounted_of_reachable hkeep hreach i row (hlike.births ▸ hrow) with
      ⟨q, hq, hserial, -⟩ | hposted
    · have hstatus := hquiet.published q (hlike.table ▸ hq)
      exact hserial ▸ posted_of_reachable hkeep hreach q hq hstatus
    · exact hposted
  obtain ⟨row', hrow', posting, -, -, ⟨partition, -, hstream⟩, hfields, hthere⟩ :=
    exists_hasSent hreach hposted
  have hsame : row' = row := by
    rw [← hlike.births, hrow] at hrow'
    exact (Option.some.inj hrow').symm
  subst hsame
  rw [hstream, ← hlike.streams] at hthere
  obtain ⟨e, he, heq⟩ := List.mem_map.mp hthere
  exact ⟨partition, e, he, heq.trans hfields⟩

/-- Every deletion was handled. -/
theorem cleared_of_quiescent (hkeep : Outlasting p.pubs) (h : Reachable p w)
    (hquiet : Quiescent p w) {user : Int} (hleft : .left user ∈ w.history) :
    .cleared user ∈ w.history := by
  obtain ⟨i, row, hrow, htopic, hreaction⟩ := told_of_reachable h user hleft
  obtain ⟨partition, e, he, hfields⟩ := exists_entry_of_quiescent hkeep h hquiet hrow
  rw [htopic] at he
  obtain ⟨record, hrecord, hkey⟩ := List.any_eq_true.mp (hquiet.handled partition e he)
  obtain ⟨partition', e', he', hkey', hheard⟩ := heard_of_reachable h record hrecord
  -- the recorded delivery has the key of the entry, so it is the entry
  have hplace : (p.delivery partition e).eventKey = (p.delivery partition' e').eventKey :=
    (of_decide_eq_true hkey).symm.trans hkey'
  have htopics : (p.delivery partition e).topic = (p.delivery partition' e').topic := rfl
  obtain ⟨hpartition, hoffset⟩ := Delivery.eq_of_eventKey htopics hplace
  change partition = partition' at hpartition
  subst hpartition
  have hsame : e = e' := by
    obtain ⟨r, hreach, hlike⟩ := exists_likeness h
    have hkeeps := keeps_of_reachable hreach (streamName p.topics.users partition)
    rw [hlike.streams, Streams.entriesOf_eq] at he he'
    exact hkeeps.eq_of_id he he' (EntryId.text_injective hoffset)
  subst hsame
  refine hheard _ ?_
  have hpayload : (p.delivery partition e).payload = row.payload := by
    unfold delivery
    rw [hfields, Delivery.ofFields_ofMessage]
  rw [hpayload, hreaction]
  exact List.mem_cons_self

/-- When everything is published and handled, no task of a deleted user is left, unless a task was
created for the user after the deletion had been handled: then nothing removes it any more. -/
theorem no_orphans (hkeep : Outlasting p.pubs) (h : Reachable p w) (hquiet : Quiescent p w)
    {user : Int} (hleft : .left user ∈ w.history) (hlate : ¬ GainedLate w.history user) :
    ∀ t ∈ w.stored.tasks, t.userId ≠ user := by
  rintro t ht rfl
  exact hlate ((recent_of_reachable h t ht).late (cleared_of_quiescent hkeep h hquiet hleft))

/-! ## Tasks created in an outage -/

/-- One publisher, three partitions. -/
def loneDeployment : Deployment := ⟨{keepingPublisher}, ⟨3, none⟩, ⟨"users", "tasks"⟩, true⟩

/-- A desk whose cache answers that users exist when nothing is known. -/
def trustingDesk : Session :=
  { emptyDesk with cache := .fresh Existence.askingOnce Existence.tripsAtOnce }

/-- A user is created and deleted. -/
def departure : List Move :=
  [.call (.createUser (some "ann@example.com") none none), .call (.deleteUser 1)]

/-- A task is created for the user while the remote side cannot be asked. -/
def blindCreation : List Move := [.ask 1 "t", .settle 0 (.error .timedOut), .create 0]

/-- A tick that claims one row and sends it. -/
def lastingTick : List Move :=
  [.relay (.claim keepingPublisher []), .relay (.land 0 0), .relay (.record 0), .relay (.leave 0)]

/-- The two events of the user are handled. -/
def reactions : List Move := [.handle 2 0, .handle 2 1]

/-- The task is created before the deletion is published. -/
def timelyCreation : List Move :=
  departure ++ blindCreation ++ lastingTick ++ lastingTick ++ lastingTick ++ reactions

/-- The task is created after the deletion was handled. -/
def belatedCreation : List Move :=
  departure ++ lastingTick ++ lastingTick ++ reactions ++ blindCreation ++ lastingTick

/-- Both runs use the settings of the deployment. -/
theorem uses_loneDeployment :
    ∀ m ∈ timelyCreation ++ belatedCreation, m.Uses loneDeployment := by
  simp [timelyCreation, belatedCreation, departure, blindCreation, lastingTick, reactions,
    Move.Uses, Publisher.Move.Uses, loneDeployment, FairSends]

/-- What is to be seen of a deployment. -/
structure Outlook where
  /-- What happened. -/
  history : List Incident
  /-- The owners of tasks. -/
  owners : List Int
  /-- Where the rows of the outbox stand. -/
  rows : List OutboxStatus
  /-- The streams. -/
  streams : List String
  /-- Whether each entry of a stream of the user events is recorded. -/
  recorded : List Bool
deriving DecidableEq

/-- Looks at a deployment, and at one partition of its user events. -/
def outlook (w : Site) (partition : Int) : Outlook where
  history := w.history
  owners := w.stored.tasks.map (·.userId)
  rows := w.relay.table.map (·.status)
  streams := w.relay.streams.map (·.name)
  recorded := (w.relay.streams.entriesOf (streamName "users" partition)).map fun e =>
    w.stored.isRecorded (loneDeployment.delivery partition e).eventKey

/-- Each run ends in this way: everything is published, and the events of the user are in one
partition and handled. -/
def restful (history : List Incident) (owners : List Int) : Outlook :=
  ⟨history, owners, [.published, .published, .published], [streamName "users" 2, "tasks:2"],
    [true, true]⟩

/-- A deployment that looks at rest is at rest. -/
theorem quiescent_of_restful {history : List Incident} {owners : List Int}
    (h : outlook w 2 = restful history owners) : Quiescent loneDeployment w := by
  have hrows : w.relay.table.map (·.status) = [.published, .published, .published] :=
    congrArg Outlook.rows h
  have hstreams : w.relay.streams.map (·.name) = [streamName "users" 2, "tasks:2"] :=
    congrArg Outlook.streams h
  have hrecorded : (w.relay.streams.entriesOf (streamName "users" 2)).map (fun e =>
      w.stored.isRecorded (loneDeployment.delivery 2 e).eventKey) = [true, true] :=
    congrArg Outlook.recorded h
  constructor
  case published =>
    intro r hr
    have hmem : r.status ∈ w.relay.table.map (·.status) := List.mem_map_of_mem hr
    rw [hrows] at hmem
    simpa using hmem
  case handled =>
    intro partition e he
    change e ∈ w.relay.streams.entriesOf (streamName "users" partition) at he
    have hname : streamName "users" partition ∈ w.relay.streams.map (·.name) := by
      by_contra hnone
      rw [Streams.entriesOf_eq_nil hnone] at he
      cases he
    rw [hstreams] at hname
    rcases List.mem_cons.mp hname with hsame | hother
    · have hpartition := streamName_injective hsame
      subst hpartition
      have hmem := List.mem_map_of_mem
        (f := fun e => w.stored.isRecorded (loneDeployment.delivery 2 e).eventKey) he
      rw [hrecorded] at hmem
      simpa using hmem
    · -- the other stream is of another topic
      have hlist := congrArg String.toList (List.mem_singleton.mp hother)
      have htopic : (toString "users").toList = ['u', 's', 'e', 'r', 's'] := rfl
      unfold streamName at hlist
      rw [String.toList_append, String.toList_append, htopic] at hlist
      simp at hlist

/-- A run that can be played and ends in this way leads to a deployment at rest. -/
theorem exists_of_plays {moves : List Move} {history : List Incident} {owners : List Int}
    (huses : ∀ m ∈ moves, m.Uses loneDeployment)
    (hplays : (plays loneDeployment (start trustingDesk) moves).map (outlook · 2) =
      some (restful history owners)) :
    ∃ w, Reachable loneDeployment w ∧ Quiescent loneDeployment w ∧ w.history = history ∧
      w.stored.tasks.map (·.userId) = owners := by
  obtain ⟨w, hw, hseen⟩ := Option.map_eq_some_iff.mp hplays
  exact ⟨w, reachable_of_plays huses (.start trustingDesk) hw, quiescent_of_restful hseen,
    congrArg Outlook.history hseen, congrArg Outlook.owners hseen⟩

/-- A task is created for a deleted user before the deletion is handled, and is gone when all is
done. -/
theorem no_orphans_of_timelyCreation : ∃ w, Reachable loneDeployment w ∧
    Quiescent loneDeployment w ∧ w.history = [.left 1, .gained 1, .cleared 1] ∧
    ∀ t ∈ w.stored.tasks, t.userId ≠ 1 := by
  have hplays : (plays loneDeployment (start trustingDesk) timelyCreation).map (outlook · 2) =
      some (restful [.left 1, .gained 1, .cleared 1] []) := by
    decide +kernel
  obtain ⟨w, hreach, hquiet, hhistory, -⟩ :=
    exists_of_plays (fun m hm => uses_loneDeployment m (List.mem_append_left _ hm)) hplays
  refine ⟨w, hreach, hquiet, hhistory, no_orphans ?_ hreach hquiet ?_ ?_⟩
  · rintro p rfl q rfl
    decide +kernel
  · rw [hhistory]
    exact List.mem_cons_self
  · rw [hhistory]
    unfold GainedLate
    decide

/-- A task is created for a deleted user after the deletion was handled, as the remote side could not
be asked, and stays when all is done. -/
theorem orphan_of_belatedCreation : ∃ w, Reachable loneDeployment w ∧
    Quiescent loneDeployment w ∧ w.history = [.left 1, .cleared 1, .gained 1] ∧
    ∃ t ∈ w.stored.tasks, t.userId = 1 := by
  have hplays : (plays loneDeployment (start trustingDesk) belatedCreation).map (outlook · 2) =
      some (restful [.left 1, .cleared 1, .gained 1] [1]) := by
    decide +kernel
  obtain ⟨w, hreach, hquiet, hhistory, howners⟩ :=
    exists_of_plays (fun m hm => uses_loneDeployment m (List.mem_append_right _ hm)) hplays
  refine ⟨w, hreach, hquiet, hhistory, ?_⟩
  obtain ⟨t, rest, htasks, howner, -⟩ := List.map_eq_cons_iff.mp howners
  rw [htasks]
  exact ⟨t, List.mem_cons_self, howner⟩

end Deployment

end EventRelay
