import EventRelay.Proofs.Publisher.Units
import EventRelay.Proofs.Publisher.Run
import EventRelay.Proofs.Stream.Members

/-!
# What publishers do not look at

The units of work of a publisher read and change the outbox and no other table.  So in two sessions
that have the same outbox, the same time and the same script they come to the same end, whatever else
is in the two databases, caches and counters.  A step of publishers next to others, who change the
other tables as they like, is therefore a step of publishers on their own.

* `OutboxOnly`: a program does the same in sessions that cannot be told apart by a look at the outbox.
* `outboxOnly_claimBatch`, `outboxOnly_reconcile`, `outboxOnly_cleanup`: those of a publisher are such.
* `step_of_likeness`: what happens in one relay can happen in each that has the same outbox.
* `stored_of_step`, `streams_of_step`: a step changes no other table, and appends to streams only.
-/

namespace EventRelay

/-- The sessions have the same time, script and outbox, staged and stored. -/
structure SameOutbox (s t : Session) : Prop where
  /-- The time is the same. -/
  now : s.now = t.now
  /-- The next outcomes are. -/
  script : s.script = t.script
  /-- The connection is used in both or in none. -/
  begun : s.begun = t.begun
  /-- The outbox that is stored is the same. -/
  stored : s.stored.outbox = t.stored.outbox
  /-- So is the one with the changes staged so far. -/
  staged : s.staged.outbox = t.staged.outbox

namespace Work

variable {α β : Type} {w : Work α} {s t : Session}

/-- The program comes to the same end in sessions that have the same outbox, and leaves sessions that
have the same outbox. -/
def OutboxOnly (w : Work α) : Prop :=
  ∀ s t, SameOutbox s t →
    (w.follow s).1 = (w.follow t).1 ∧ SameOutbox (w.follow s).2 (w.follow t).2

/-! ## Programs -/

/-- A program that does nothing looks at nothing. -/
theorem outboxOnly_pure (a : α) : OutboxOnly (pure a : Work α) := fun _ _ h => ⟨rfl, h⟩

/-- A program that fails at once looks at nothing. -/
theorem outboxOnly_throw (e : Failure) : OutboxOnly (throw e : Work α) := fun _ _ h => ⟨rfl, h⟩

/-- A program that ends at once looks at nothing. -/
theorem outboxOnly_ofExcept (r : Except Failure α) : OutboxOnly (ofExcept r) :=
  fun _ _ h => ⟨rfl, h⟩

/-- A program and what comes after it look at the outbox only, if both do. -/
theorem outboxOnly_bind {k : α → Work β} (hw : OutboxOnly w) (hk : ∀ a, OutboxOnly (k a)) :
    OutboxOnly (w >>= k) := by
  intro s t h
  obtain ⟨hresult, hafter⟩ := hw s t h
  rw [follow_bind, follow_bind]
  rcases hs : w.follow s with ⟨e | a, s'⟩
  all_goals
    rcases ht : w.follow t with ⟨e' | a', t'⟩
    all_goals
      rw [hs, ht] at hresult hafter
      cases hresult
  · exact ⟨rfl, hafter⟩
  · exact hk a s' t' hafter

/-- A change that treats sessions of the same outbox alike. -/
theorem outboxOnly_modify {f : Session → Session}
    (hf : ∀ s t, SameOutbox s t → SameOutbox (f s) (f t)) :
    OutboxOnly (modify f : Work Unit) :=
  fun s t h => ⟨rfl, hf s t h⟩

/-- The clock is the same in both sessions. -/
theorem outboxOnly_now : OutboxOnly Work.now :=
  fun _ _ h => ⟨congrArg Except.ok h.now, h⟩

/-- A notice is no look at another table. -/
theorem outboxOnly_tell (n : Notice) : OutboxOnly (tell n) :=
  outboxOnly_modify fun _ _ h => { h with }

/-- A counter that grows is no look at another table. -/
theorem outboxOnly_count (c : Counter) (amount : Nat) : OutboxOnly (count c amount) :=
  outboxOnly_modify fun _ _ h => { h with }

/-- A pause is no look at another table. -/
theorem outboxOnly_pause (span : Span) : OutboxOnly (pause span) := by
  unfold pause
  split
  · exact outboxOnly_pure ()
  · exact fun s t h => ⟨rfl, { h with now := congrArg (· + span) h.now }⟩

/-- The script is the same in both sessions. -/
theorem outboxOnly_outcome (op : DbOp) : OutboxOnly (outcome op) := by
  intro s t h
  have hpause := outboxOnly_pause (Outcome.next (t.script op)).1.delay
  unfold outcome
  rw [follow_bind, follow_bind, follow_get, follow_get]
  dsimp only
  rw [follow_bind, follow_bind, follow_set, follow_set, h.script]
  refine outboxOnly_bind hpause (fun _ => outboxOnly_pure _) _ _ { h with script := ?_ }
  rfl

/-! ## Operations -/

/-- An operation looks at the outbox only, if what is really done does. -/
theorem outboxOnly_perform (op : DbOp) (answer : Int → α) {real : Work α} (h : OutboxOnly real) :
    OutboxOnly (perform op answer real) :=
  outboxOnly_bind (outboxOnly_outcome op) fun turn =>
    match turn with
    | .through => h
    | .raise e => outboxOnly_throw e
    | .answer n => outboxOnly_pure (answer n)

/-- The same of an operation that gives no answers by itself. -/
theorem outboxOnly_attempt (op : DbOp) {real : Work α} (h : OutboxOnly real) :
    OutboxOnly (attempt op real) :=
  outboxOnly_bind (outboxOnly_outcome op) fun turn =>
    match turn with
    | .through => h
    | .raise e => outboxOnly_throw e
    | .answer _ => h

/-- The use of the connection is no look at a table. -/
theorem outboxOnly_begin : OutboxOnly begin :=
  outboxOnly_modify fun _ _ h => { h with begun := rfl }

/-- The check of an integer is no look at a table. -/
theorem outboxOnly_word (n : Int) : OutboxOnly (word n) := by
  refine outboxOnly_bind outboxOnly_begin fun _ => ?_
  split
  · exact outboxOnly_pure ()
  · exact outboxOnly_throw .integerTooLarge

/-- A change of the outbox alone. -/
theorem outboxOnly_stage (f : Outbox → α × Outbox) :
    OutboxOnly (stage fun d => ((f d.outbox).1, { d with outbox := (f d.outbox).2 })) := by
  refine outboxOnly_bind outboxOnly_begin fun _ s t h => ⟨?_, { h with staged := ?_ }⟩
  · exact congrArg (fun outbox => Except.ok (f outbox).1) h.staged
  · exact congrArg (fun outbox => (f outbox).2) h.staged

/-- A commit leaves sessions alike that have the same outbox. -/
theorem outboxOnly_commit : OutboxOnly commit := by
  refine outboxOnly_perform .commit _ (outboxOnly_modify fun s t h => ?_)
  rw [h.begun]
  split
  · exact { h with stored := h.staged, begun := rfl }
  · exact h

/-- As a whole it comes to the same end wherever time, script and stored outbox are the same. -/
theorem OutboxOnly.run (hw : OutboxOnly w) (hnow : s.now = t.now) (hscript : s.script = t.script)
    (hstored : s.stored.outbox = t.stored.outbox) :
    (w.run s).1 = (w.run t).1 ∧ (w.run s).2.stored.outbox = (w.run t).2.stored.outbox := by
  obtain ⟨hresult, hafter⟩ := hw (settled s) (settled t) ⟨hnow, hscript, rfl, hstored, hstored⟩
  exact ⟨hresult, hafter.stored⟩

end Work

/-! ## Publishers -/

namespace Publisher

open Work

/-- The claim of a batch looks at the outbox only. -/
theorem outboxOnly_claimBatch (cfg : PublisherConfig) : OutboxOnly (claimBatch cfg) := by
  have hcounted : ∀ (released : Int) (rows : List OutboxRow), OutboxOnly (do
      if released ≠ 0 then
        Work.count .staleReleased released.toNat
        Work.tell (.staleReleased released.toNat)
      return rows : Work (List OutboxRow)) := by
    intro released rows
    dsimp only
    split
    · exact outboxOnly_bind (outboxOnly_count _ _) fun _ =>
        outboxOnly_bind (outboxOnly_tell _) fun _ => outboxOnly_pure rows
    · exact outboxOnly_pure rows
  refine outboxOnly_bind outboxOnly_now fun now => ?_
  refine outboxOnly_bind (outboxOnly_ofExcept _) fun olderThan => ?_
  refine outboxOnly_bind ?_ fun released => outboxOnly_bind ?_ fun rows =>
    outboxOnly_bind outboxOnly_commit fun _ => ?_
  · exact outboxOnly_perform .outboxRelease id (outboxOnly_bind (outboxOnly_word _) fun _ =>
      outboxOnly_stage fun t =>
        (((t.releaseStale olderThan cfg.maxRetries).1 : Int),
          (t.releaseStale olderThan cfg.maxRetries).2))
  · exact outboxOnly_attempt .outboxClaim (outboxOnly_bind (outboxOnly_word _) fun _ =>
      outboxOnly_stage fun t => t.claim cfg.batch now)
  · dsimp only
    split
    · exact outboxOnly_bind (outboxOnly_throw .negativeGrowth) fun _ => hcounted released rows
    · exact hcounted released rows

/-- Recording that a row was accepted looks at the outbox only. -/
theorem outboxOnly_recordSuccess (row : OutboxRow) : OutboxOnly (recordSuccess row) := by
  refine outboxOnly_bind outboxOnly_now fun now => outboxOnly_bind ?_ fun hit =>
    outboxOnly_bind outboxOnly_commit fun _ => ?_
  · exact outboxOnly_attempt .outboxPublish (outboxOnly_bind (outboxOnly_word _) fun _ =>
      outboxOnly_stage fun t => t.markPublished row.id now)
  · split
    · exact outboxOnly_bind (outboxOnly_count _ _) fun _ => outboxOnly_pure hit
    · exact outboxOnly_bind (outboxOnly_tell _) fun _ => outboxOnly_pure hit

/-- Recording that a send failed looks at the outbox only. -/
theorem outboxOnly_recordFailure (cfg : PublisherConfig) (row : OutboxRow) (cause : Failure) :
    OutboxOnly (recordFailure cfg row cause) := by
  refine outboxOnly_bind ?_ fun hit => outboxOnly_bind outboxOnly_commit fun _ => ?_
  · exact outboxOnly_attempt .outboxFail (outboxOnly_bind (outboxOnly_word _) fun _ =>
      outboxOnly_bind (outboxOnly_word _) fun _ =>
        outboxOnly_stage fun t => t.changeClaimed row.id _)
  · split
    · exact outboxOnly_tell _
    · exact outboxOnly_bind (outboxOnly_count _ _) fun _ => outboxOnly_tell _

/-- Recording an outcome looks at the outbox only. -/
theorem outboxOnly_reconcile (cfg : PublisherConfig) (row : OutboxRow)
    (result : Except Failure Receipt) : OutboxOnly (reconcile cfg row result) :=
  match result with
  | .ok _ => outboxOnly_recordSuccess row
  | .error e => outboxOnly_bind (outboxOnly_recordFailure cfg row e) fun _ => outboxOnly_pure false

/-- A cleanup looks at the outbox only. -/
theorem outboxOnly_cleanup (cfg : PublisherConfig) : OutboxOnly (cleanup cfg) := by
  refine outboxOnly_bind outboxOnly_now fun now => ?_
  refine outboxOnly_bind (outboxOnly_ofExcept _) fun cutoff => outboxOnly_bind ?_ fun n =>
    outboxOnly_bind outboxOnly_commit fun _ => outboxOnly_pure n
  exact outboxOnly_attempt .outboxPurge (outboxOnly_stage fun t => t.purge cutoff)

/-! ## Steps -/

/-- Two relays differ at most in the tables beside the outbox, in the cache and in what is told to
operators. -/
structure Likeness (s r : Relay) : Prop where
  /-- The time is the same. -/
  now : s.now = r.now
  /-- The outbox is. -/
  table : s.table = r.table
  /-- The streams are. -/
  streams : s.streams = r.streams
  /-- The ticks under way are. -/
  ticks : s.ticks = r.ticks
  /-- The rows ever appended are. -/
  births : s.births = r.births
  /-- Their numbers are. -/
  serial : s.serial = r.serial
  /-- The number of claims is. -/
  claims : s.claims = r.claims
  /-- What was claimed is. -/
  claimLog : s.claimLog = r.claimLog
  /-- So are all entries ever appended. -/
  journal : s.journal = r.journal

variable {pubs : Set PublisherConfig} {b : Broker} {s s' r : Relay} {α : Type} {w : Work α}

/-- A relay is like itself. -/
theorem Likeness.refl (s : Relay) : Likeness s s := ⟨rfl, rfl, rfl, rfl, rfl, rfl, rfl, rfl, rfl⟩

/-- Relays that are like a third one are alike. -/
theorem Likeness.trans (h : Likeness s s') (h' : Likeness s' r) : Likeness s r where
  now := h.now.trans h'.now
  table := h.table.trans h'.table
  streams := h.streams.trans h'.streams
  ticks := h.ticks.trans h'.ticks
  births := h.births.trans h'.births
  serial := h.serial.trans h'.serial
  claims := h.claims.trans h'.claims
  claimLog := h.claimLog.trans h'.claimLog
  journal := h.journal.trans h'.journal

/-- A unit of work that looks at the outbox only keeps relays alike. -/
theorem Likeness.transact (h : Likeness s r) (hw : OutboxOnly w) (script : DbScript) :
    (s.transact script w).1 = (r.transact script w).1 ∧
      Likeness (s.transact script w).2 (r.transact script w).2 := by
  obtain ⟨hresult, hstored⟩ := hw.run (s := { s.desk with script }) (t := { r.desk with script })
    h.now rfl h.table
  exact ⟨hresult, { h with table := hstored }⟩

/-- Relays stay alike with other ticks. -/
theorem Likeness.withTicks (h : Likeness s r) (ticks : List Tick) :
    Likeness (s.withTicks ticks) (r.withTicks ticks) :=
  { h with ticks := rfl }

/-- Relays stay alike when a message is delivered. -/
theorem Likeness.deliver (h : Likeness s r) (b : Broker) (t : Tick) (row : OutboxRow)
    (partition : Int) : Likeness (s.deliver b t row partition) (r.deliver b t row partition) :=
  { h with
    streams := by
      unfold Relay.deliver
      rw [h.now, h.streams]
    journal := congrArg (· ++ _) h.journal }

/-- Relays stay alike when a send ends. -/
theorem Likeness.deliverIf (h : Likeness s r) (b : Broker) (t : Tick) (row : OutboxRow)
    (ending : Ending) : Likeness (s.deliverIf b t row ending) (r.deliverIf b t row ending) := by
  cases ending with
  | accept partition => exact h.deliver b t row partition
  | vouch receipt => exact h
  | fail cause => exact h

/-- Relays stay alike when an event is appended. -/
theorem Likeness.append (h : Likeness s r) (eventType topic payload : String)
    (key : Option String) (createdAt : Instant) :
    Likeness (s.append eventType topic payload key createdAt)
      (r.append eventType topic payload key createdAt) :=
  { h with
    table := congrArg (fun t : Outbox => (t.append eventType topic payload key createdAt).2) h.table
    births := by
      unfold Relay.append
      dsimp only
      rw [h.births, h.table]
    serial := by
      unfold Relay.append
      dsimp only
      rw [h.births, h.table, h.serial] }

/-- Relays stay alike when a batch is claimed. -/
theorem Likeness.claim (h : Likeness s r) (cfg : PublisherConfig) (b : Broker) (script : DbScript)
    (sends : List (Outcome String)) :
    Likeness (s.claim cfg b script sends) (r.claim cfg b script sends) := by
  obtain ⟨hresult, hafter⟩ := h.transact (outboxOnly_claimBatch cfg) script
  unfold Relay.claim
  rcases hs : s.transact script (claimBatch cfg) with ⟨e | rows, u⟩
  all_goals
    rcases hr : r.transact script (claimBatch cfg) with ⟨e' | rows', v⟩
    all_goals
      rw [hs, hr] at hresult hafter
      cases hresult
  · exact hafter
  · exact
      { hafter with
        ticks := by
          dsimp only
          rw [hafter.ticks, hafter.claims, hafter.now, hafter.serial]
        claims := congrArg (· + 1) hafter.claims
        claimLog := by
          dsimp only
          rw [hafter.claimLog, hafter.claims, hafter.serial] }

/-- What happens in one relay can happen in each that is like it. -/
theorem step_of_likeness (h : Likeness s r) (hstep : Step pubs b s s') :
    ∃ r', Step pubs b r r' ∧ Likeness s' r' := by
  cases hstep with
  | append eventType topic payload key createdAt =>
    exact ⟨_, .append r eventType topic payload key createdAt, h.append _ _ _ _ _⟩
  | claim hcfg hscript hsends =>
    exact ⟨_, .claim r hcfg hscript hsends, h.claim _ _ _ _⟩
  | land ht hf hdue =>
    rw [h.now, h.streams]
    rw [h.ticks] at ht
    rw [h.now] at hdue
    exact ⟨_, .land r ht hf hdue, (h.deliverIf _ _ _ _).withTicks _⟩
  | slip ht hf htime hp =>
    rw [h.ticks] at ht
    exact ⟨_, .slip r ht hf htime hp, h.deliver _ _ _ _⟩
  | @record before after t ht hover row result rest hf script hscript =>
    obtain ⟨hresult, hafter⟩ := h.transact (outboxOnly_reconcile t.cfg row result) script
    rw [h.ticks] at ht
    refine ⟨_, .record r ht hover hf hscript, ?_⟩
    dsimp only
    rw [hresult]
    exact hafter.withTicks _
  | leave ht =>
    rw [h.ticks] at ht
    exact ⟨_, .leave r ht, h.withTicks _⟩
  | @clean cfg hcfg script hscript =>
    exact ⟨_, .clean r hcfg hscript, (h.transact (outboxOnly_cleanup cfg) script).2⟩
  | other stream fields maxlen approximate =>
    refine ⟨_, .other r stream fields maxlen approximate, { h with streams := ?_, journal := ?_ }⟩
    · unfold Relay.post
      dsimp only
      rw [h.streams, h.now]
    · exact congrArg (· ++ _) h.journal
  | pass hle hwait =>
    rw [h.now] at hle
    rw [h.ticks] at hwait
    exact ⟨_, .pass r hle hwait, { h with now := rfl }⟩

/-! ## What is left alone -/

/-- A unit of work of a publisher stores an outbox and no other table. -/
theorem stored_transact {committed : α → Outbox → Tally → Prop} {script : DbScript}
    (h : Transacted { s.desk with script } (w.run { s.desk with script }) committed) :
    ∃ outbox, (s.transact script w).2.desk.stored = { s.desk.stored with outbox } := by
  cases h with
  | failed e result stored tally => exact ⟨s.desk.stored.outbox, stored⟩
  | committed a outbox result stored h => exact ⟨outbox, stored⟩

/-- A step changes no table but the outbox. -/
theorem stored_of_step (hstep : Step pubs b s s') :
    ∃ outbox, s'.desk.stored = { s.desk.stored with outbox } := by
  cases hstep with
  | append eventType topic payload key createdAt => exact ⟨_, rfl⟩
  | @claim cfg hcfg script hscript sends hsends =>
    obtain ⟨outbox, hstored⟩ := stored_transact
      (run_claimBatch (s := { s.desk with script }) hscript cfg)
    refine ⟨outbox, Eq.trans ?_ hstored⟩
    unfold Relay.claim
    rcases s.transact script (claimBatch cfg) with ⟨e | rows, u⟩ <;> rfl
  | @land before after t ht fs gs row due ending hf hdue =>
    refine ⟨s.desk.stored.outbox, ?_⟩
    cases ending <;> rfl
  | slip ht hf htime hp => exact ⟨s.desk.stored.outbox, rfl⟩
  | @record before after t ht hover row result rest hf script hscript =>
    exact stored_transact (run_reconcile (s := { s.desk with script }) hscript t.cfg row result)
  | leave ht => exact ⟨s.desk.stored.outbox, rfl⟩
  | @clean cfg hcfg script hscript =>
    exact stored_transact (run_cleanup (s := { s.desk with script }) hscript cfg)
  | other stream fields maxlen approximate => exact ⟨s.desk.stored.outbox, rfl⟩
  | pass hle hwait => exact ⟨s.desk.stored.outbox, rfl⟩

/-- A step leaves the streams as they are, or appends one entry. -/
theorem streams_of_step (hstep : Step pubs b s s') :
    s'.streams = s.streams ∨ ∃ name fields maxlen approximate,
      s'.streams = (s.streams.append name s.now fields maxlen approximate).2 := by
  cases hstep with
  | append eventType topic payload key createdAt => exact .inl rfl
  | @claim cfg hcfg script hscript sends hsends =>
    refine .inl ?_
    have hsame : (s.transact script (claimBatch cfg)).2.streams = s.streams := rfl
    unfold Relay.claim
    rcases hclaim : s.transact script (claimBatch cfg) with ⟨e | rows, u⟩
    all_goals
      rw [hclaim] at hsame
      exact hsame
  | @land before after t ht fs gs row due ending hf hdue =>
    cases ending with
    | accept partition => exact .inr ⟨_, _, _, _, rfl⟩
    | vouch receipt => exact .inl rfl
    | fail cause => exact .inl rfl
  | slip ht hf htime hp => exact .inr ⟨_, _, _, _, rfl⟩
  | record ht hover hf hscript => exact .inl rfl
  | leave ht => exact .inl rfl
  | clean hcfg hscript => exact .inl rfl
  | other stream fields maxlen approximate => exact .inr ⟨_, _, _, _, rfl⟩
  | pass hle hwait => exact .inl rfl

end Publisher

end EventRelay
