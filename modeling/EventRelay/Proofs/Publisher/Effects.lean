import EventRelay.Proofs.Lists
import EventRelay.Proofs.Publisher.Run
import EventRelay.Proofs.Publisher.Units
import EventRelay.Proofs.Store.OutboxTable

/-!
# What a step of publishers does

A step has one of five effects, and each says what becomes of every part of the state that an
invariant is about.

* `effect_of_step`: a step appends a row, claims a batch, delivers a message, records an outcome, or
  is quiet: it leaves rows as they are, or removes published ones.
* `exists_launchAll`: the sends of a batch carry its rows, and end within the time limit.
* `airborne_of_nextDue`: the next send to end is one that is under way.
* `serial_of_step`, `births_of_step`, `journal_of_step`, `tick_of_step`: what every step leaves as
  it is.
-/

namespace EventRelay

namespace Publisher

open Relay

/-! ## Sends -/

/-- A send ends within its time limit, and is taken in only on the partition of its row. -/
def Timely (cfg : PublisherConfig) (b : Broker) (begun : Instant) (row : OutboxRow)
    (due : Instant) (ending : Ending) : Prop :=
  due ≤ begun + max 0 cfg.sendTimeout ∧ ∀ p, ending = .accept p →
    0 < cfg.sendTimeout ∧ partitionFor row.routingKey b.partitions = .ok p

section sends

variable (cfg : PublisherConfig) (b : Broker) (now : Instant)

/-- A send that begins is under way within its time limit. -/
theorem exists_launch (row : OutboxRow) (sends : List (Outcome String)) :
    ∃ due ending, (launch cfg b now (fun span => now + span) row sends).1 =
        .airborne row due ending ∧ Timely cfg b now row due ending := by
  unfold launch
  by_cases htime : cfg.sendTimeout ≤ 0
  · rw [if_pos htime]
    refine ⟨_, _, rfl, ?_, nofun⟩
    unfold Instant Span at *
    omega
  rw [if_neg htime]
  rcases hp : partitionFor row.routingKey b.partitions with e | p
  · refine ⟨_, _, rfl, ?_, nofun⟩
    unfold Instant Span at *
    omega
  rcases Outcome.next sends with ⟨o, rest⟩
  dsimp only
  by_cases hlate : cfg.sendTimeout ≤ o.delay
  · rw [if_pos hlate]
    refine ⟨_, _, rfl, ?_, nofun⟩
    unfold Instant Span at *
    omega
  · rw [if_neg hlate]
    refine ⟨_, _, rfl, ?_, fun q hq => ?_⟩
    · unfold Instant Span at *
      omega
    have hpq : p = q := by
      cases hturn : o.turn with
      | through =>
        rw [hturn] at hq
        exact Ending.accept.inj hq
      | raise e =>
        rw [hturn] at hq
        cases hq
      | answer offset =>
        rw [hturn] at hq
        cases hq
    exact ⟨Int.not_le.mp htime, by rw [hp, hpq]⟩

/-- All sends of a batch begin, and are under way within the time limit. -/
theorem exists_launchAll (rows : List OutboxRow) (sends : List (Outcome String)) :
    (launchAll cfg b now (fun span => now + span) rows sends).1.map Flight.row = rows ∧
      ∀ f ∈ (launchAll cfg b now (fun span => now + span) rows sends).1,
        ∃ row due ending, f = .airborne row due ending ∧ Timely cfg b now row due ending := by
  induction rows generalizing sends with
  | nil => exact ⟨rfl, fun f hf => absurd hf List.not_mem_nil⟩
  | cons row rows ih =>
    unfold launchAll
    obtain ⟨due, ending, hlaunch, htimely⟩ := exists_launch cfg b now row sends
    obtain ⟨hrows, hall⟩ := ih (launch cfg b now (fun span => now + span) row sends).2
    constructor
    · rw [List.map_cons, hrows, hlaunch]
      rfl
    · intro f hf
      rcases List.mem_cons.mp hf with rfl | hf
      · exact ⟨row, due, ending, hlaunch, htimely⟩
      · exact hall f hf

end sends

/-- What is due next is a send under way. -/
theorem airborne_of_nextDue {flights : List Flight} {due : Instant}
    (h : nextDue? flights = some due) : ∃ row ending, .airborne row due ending ∈ flights := by
  unfold nextDue? at h
  have hcases : (none : Option Instant) = some due ∨
      ∃ row ending, .airborne row due ending ∈ flights := by
    -- the instant found so far is arbitrary
    generalize (none : Option Instant) = best at h ⊢
    induction flights generalizing best with
    | nil => exact .inl h
    | cons f flights ih =>
      rcases ih _ h with hbest | ⟨row, ending, hmem⟩
      · cases f with
        | landed row r => exact .inl hbest
        | airborne row d ending =>
          cases best with
          | none =>
            cases hbest
            exact .inr ⟨row, ending, List.mem_cons_self⟩
          | some d' =>
            have hmin : min d d' = due := Option.some.inj hbest
            rcases Int.le_total d d' with hle | hle
            · rw [Int.min_eq_left hle] at hmin
              subst hmin
              exact .inr ⟨row, ending, List.mem_cons_self⟩
            · rw [Int.min_eq_right hle] at hmin
              exact .inl (congrArg some hmin)
      · exact .inr ⟨row, ending, List.mem_cons_of_mem _ hmem⟩
  exact hcases.resolve_left nofun

/-! ## Ticks -/

/-- The rows of a tick, less those whose outcomes are recorded. -/
def Tick.rows (t : Tick) : List OutboxRow := t.flights.map Flight.row

/-- The row of a send under way is a row of its tick. -/
theorem Tick.mem_rows {t : Tick} {row : OutboxRow} {due : Instant} {ending : Ending}
    (h : .airborne row due ending ∈ t.flights) : row ∈ t.rows :=
  List.mem_map_of_mem (f := Flight.row) h

/-- The rows of a tick whose first send is over begin with that row. -/
theorem Tick.rows_of_landed {t : Tick} {row : OutboxRow} {result : Except Failure Receipt}
    {rest : List Flight} (h : t.flights = .landed row result :: rest) :
    t.rows = row :: rest.map Flight.row := by
  unfold Tick.rows
  rw [h]
  rfl

/-- The row of a send that is over is a row of its tick. -/
theorem Tick.mem_rows_of_landed {t : Tick} {row : OutboxRow} {result : Except Failure Receipt}
    {rest : List Flight} (h : t.flights = .landed row result :: rest) : row ∈ t.rows := by
  rw [Tick.rows_of_landed h]
  exact List.mem_cons_self

/-- A tick has the same rows when one of its sends is over. -/
theorem Tick.rows_land {t : Tick} {fs gs : List Flight} {row : OutboxRow} {due : Instant}
    {ending : Ending} (hf : t.flights = fs ++ .airborne row due ending :: gs)
    (result : Except Failure Receipt) :
    Tick.rows { t with flights := fs ++ .landed row result :: gs } = t.rows := by
  unfold Tick.rows
  rw [hf, List.map_append, List.map_append]
  rfl

/-- The first tick is the second one later: some of its sends are over, some of its outcomes are
recorded. -/
structure Tick.Trails (t' t : Tick) : Prop where
  /-- Its settings are the same. -/
  cfg : t'.cfg = t.cfg
  /-- The number of its claim is the same. -/
  number : t'.number = t.number
  /-- The time of its claim is the same. -/
  claimedAt : t'.claimedAt = t.claimedAt
  /-- The numbers of its rows are the same. -/
  serial : t'.serial = t.serial
  /-- It has no other rows. -/
  rows : t'.rows.Sublist t.rows
  /-- No other sends are under way. -/
  airborne : ∀ {row due ending}, .airborne row due ending ∈ t'.flights →
    .airborne row due ending ∈ t.flights

/-- A tick at which nothing has happened is itself later. -/
theorem Tick.Trails.refl (t : Tick) : t.Trails t :=
  ⟨rfl, rfl, rfl, rfl, List.Sublist.refl _, id⟩

/-- Ticks later: each is a former one later, and none has a row that it had not before. -/
structure Trail (ticks' ticks : List Tick) : Prop where
  /-- Each is a former one later. -/
  each : ∀ t' ∈ ticks', ∃ t ∈ ticks, t'.Trails t
  /-- Their rows are among those from before. -/
  ids : (ticks'.flatMap fun t => t.rows.map (·.id)).Sublist
    (ticks.flatMap fun t => t.rows.map (·.id))

/-- Ticks at which nothing has happened are themselves later. -/
theorem Trail.refl (ticks : List Tick) : Trail ticks ticks :=
  ⟨fun t ht => ⟨t, ht, .refl t⟩, List.Sublist.refl _⟩

/-- One of the ticks gets further. -/
theorem trail_replace {before after : List Tick} {t' t : Tick} (h : t'.Trails t) :
    Trail (before ++ t' :: after) (before ++ t :: after) where
  each u hu := by
    rcases List.mem_append.mp hu with hu | hu
    · exact ⟨u, List.mem_append_left _ hu, .refl u⟩
    rcases List.mem_cons.mp hu with rfl | hu
    · exact ⟨t, List.mem_append_right _ List.mem_cons_self, h⟩
    · exact ⟨u, List.mem_append_right _ (List.mem_cons_of_mem _ hu), .refl u⟩
  ids := by
    simp only [List.flatMap_append, List.flatMap_cons]
    exact (List.Sublist.refl _).append ((h.rows.map _).append (List.Sublist.refl _))

/-- One of the ticks is gone. -/
theorem trail_remove (before after : List Tick) (t : Tick) :
    Trail (before ++ after) (before ++ t :: after) where
  each u hu := by
    rcases List.mem_append.mp hu with hu | hu
    · exact ⟨u, List.mem_append_left _ hu, .refl u⟩
    · exact ⟨u, List.mem_append_right _ (List.mem_cons_of_mem _ hu), .refl u⟩
  ids := by
    simp only [List.flatMap_append, List.flatMap_cons]
    exact (List.Sublist.refl _).append (List.sublist_append_right _ _)

/-- A send of a tick is over. -/
theorem trails_land (t : Tick) {fs gs : List Flight} {row : OutboxRow} {due : Instant}
    {ending : Ending} (hf : t.flights = fs ++ .airborne row due ending :: gs)
    (result : Except Failure Receipt) :
    Tick.Trails { t with flights := fs ++ .landed row result :: gs } t where
  cfg := rfl
  number := rfl
  claimedAt := rfl
  serial := rfl
  rows := by
    rw [Tick.rows_land hf result]
  airborne := by
    intro row' due' ending' h
    rw [hf]
    simp only [List.mem_append, List.mem_cons, reduceCtorEq, false_or] at h ⊢
    exact h.imp_right .inr

/-- An outcome of a tick is recorded. -/
theorem trails_record (t : Tick) {f : Flight} {rest : List Flight} (hf : t.flights = f :: rest) :
    Tick.Trails { t with flights := rest } t where
  cfg := rfl
  number := rfl
  claimedAt := rfl
  serial := rfl
  rows := by
    unfold Tick.rows
    rw [hf]
    exact (List.sublist_cons_self f rest).map _
  airborne h := by
    rw [hf]
    exact List.mem_cons_of_mem _ h

/-! ## Effects -/

/-- The row after an outcome is recorded for it. -/
def afterOutcome (cfg : PublisherConfig) (now : Instant) (row : OutboxRow)
    (result : Except Failure Receipt) (r : OutboxRow) : OutboxRow :=
  match result with
  | .ok _ => { r with status := .published, processedAt := some now }
  | .error cause =>
    { r with
      status := if cfg.maxRetries ≤ row.retryCount + 1 then .failed else .pending
      retryCount := row.retryCount + 1
      errorMessage := some (causeText cause) }

section outcome

variable (cfg : PublisherConfig) (now : Instant) (row : OutboxRow)
  (result : Except Failure Receipt) (r : OutboxRow)

/-- An outcome changes nothing in a row that may not change. -/
theorem asAppended_afterOutcome :
    (afterOutcome cfg now row result r).asAppended = r.asAppended := by
  cases result <;> rfl

/-- After an outcome a row is not under a claim. -/
theorem status_afterOutcome : (afterOutcome cfg now row result r).status ≠ .processing := by
  cases result with
  | ok receipt => exact nofun
  | error cause =>
    unfold afterOutcome
    dsimp only
    split <;> exact nofun

end outcome

variable {pubs : Set PublisherConfig} {b : Broker} {s s' : Relay}

/-- What is the same before and after a step that neither appends nor claims. -/
structure SameBooks (s s' : Relay) : Prop where
  /-- No row is new. -/
  births : s'.births = s.births
  /-- No identifier is given out. -/
  serial : s'.serial = s.serial
  /-- No batch is claimed. -/
  claims : s'.claims = s.claims
  /-- No row comes under a claim. -/
  claimLog : s'.claimLog = s.claimLog

/-- A row was appended. -/
structure Appended (s s' : Relay) (row : OutboxRow) : Prop where
  /-- The row is as a new one is. -/
  fresh : row.asAppended = row
  /-- Its identifier is above all others. -/
  above : ∀ r ∈ s.table, r.id < row.id
  /-- It is the last one. -/
  table : s'.table = s.table ++ [row]
  /-- It gets the next number. -/
  births : s'.births = s.births ++ [row]
  /-- No other number changes. -/
  serial : s'.serial = fun id => if id = row.id then s.births.length else s.serial id
  /-- No tick takes part. -/
  ticks : s'.ticks = s.ticks
  /-- It takes no time. -/
  now : s'.now = s.now
  /-- No batch is claimed. -/
  claims : s'.claims = s.claims
  /-- No row comes under a claim. -/
  claimLog : s'.claimLog = s.claimLog
  /-- Nothing is delivered. -/
  journal : s'.journal = s.journal

/-- The rows that were there keep their numbers. -/
theorem Appended.serial_of_mem {s s' : Relay} {row r : OutboxRow} (h : Appended s s' row)
    (hr : r ∈ s.table) : s'.serial r.id = s.serial r.id := by
  rw [h.serial]
  exact if_neg (Int.ne_of_lt (h.above r hr))

/-- The new row has the number of rows that there were before. -/
theorem Appended.serial_self {s s' : Relay} {row : OutboxRow} (h : Appended s s' row) :
    s'.serial row.id = s.births.length := by
  rw [h.serial]
  exact if_pos rfl

/-- Every row was there, but the new one. -/
theorem Appended.mem_table {s s' : Relay} {row r : OutboxRow} (h : Appended s s' row)
    (hr : r ∈ s'.table) : r ∈ s.table ∨ r = row := by
  rw [h.table] at hr
  exact (List.mem_append.mp hr).imp_right List.mem_singleton.mp

/-- A batch was claimed. -/
structure Claimed (b : Broker) (cfg : PublisherConfig) (olderThan : Instant) (s s' : Relay)
    (t : Tick) : Prop where
  /-- Claims made before this instant were stale. -/
  limit : s.now.before cfg.staleAfter = .ok olderThan
  /-- They were taken back, and the batch was claimed. -/
  table : s'.table =
    (((s.table.releaseStale olderThan cfg.maxRetries).2).claim cfg.batch s.now).2
  /-- There is one tick more. -/
  ticks : s'.ticks = s.ticks ++ [t]
  /-- It has the settings of its publisher. -/
  cfg_eq : t.cfg = cfg
  /-- It has the next number. -/
  number : t.number = s.claims
  /-- It began at this instant. -/
  claimedAt : t.claimedAt = s.now
  /-- It knows the numbers of its rows. -/
  serial_eq : t.serial = s.serial
  /-- Its rows are those of the batch. -/
  rows : t.rows =
    (((s.table.releaseStale olderThan cfg.maxRetries).2).claim cfg.batch s.now).1
  /-- Its sends are under way. -/
  flights : ∀ f ∈ t.flights,
    ∃ row due ending, f = .airborne row due ending ∧ Timely cfg b s.now row due ending
  /-- It takes no time. -/
  now : s'.now = s.now
  /-- No row is new. -/
  births : s'.births = s.births
  /-- No identifier is given out. -/
  serial : s'.serial = s.serial
  /-- One more batch was claimed. -/
  claims : s'.claims = s.claims + 1
  /-- Its rows came under the claim. -/
  claimLog : s'.claimLog = t.rows.map (fun row => (s.serial row.id, s.claims)) ++ s.claimLog
  /-- Nothing is delivered. -/
  journal : s'.journal = s.journal

/-- Every tick was there, but the new one. -/
theorem Claimed.mem_ticks {b : Broker} {cfg : PublisherConfig} {olderThan : Instant}
    {s s' : Relay} {t u : Tick} (h : Claimed b cfg olderThan s s' t) (hu : u ∈ s'.ticks) :
    u ∈ s.ticks ∨ u = t := by
  rw [h.ticks] at hu
  exact (List.mem_append.mp hu).imp_right List.mem_singleton.mp

/-- A message was delivered. -/
structure Delivered (b : Broker) (s s' : Relay) (t : Tick) (row : OutboxRow) (partition : Int) :
    Prop extends SameBooks s s' where
  /-- A tick has the row. -/
  tick : t ∈ s.ticks
  /-- The send is under way, and delivers by its ending or by a slip. -/
  airborne : ∃ due ending, .airborne row due ending ∈ t.flights ∧
    (ending = .accept partition ∨
      0 < t.cfg.sendTimeout ∧ partitionFor row.routingKey b.partitions = .ok partition)
  /-- The entry is the last one. -/
  journal : s'.journal = s.journal ++ [posting t row partition]
  /-- The outbox is the same. -/
  table : s'.table = s.table
  /-- The ticks go on. -/
  ticks : Trail s'.ticks s.ticks
  /-- It takes no time. -/
  now : s'.now = s.now

/-- An outcome was recorded. -/
structure Recorded (s s' : Relay) (t : Tick) (row : OutboxRow)
    (result : Except Failure Receipt) : Prop extends SameBooks s s' where
  /-- A tick has the row first, and does without it afterwards. -/
  ticks : ∃ before after rest, s.ticks = before ++ t :: after ∧
    t.flights = .landed row result :: rest ∧
    s'.ticks = before ++ { t with flights := rest } :: after
  /-- No send of the tick is under way. -/
  landed : nextDue? t.flights = none
  /-- The row is changed if it is claimed. -/
  table : s'.table =
    (s.table.changeClaimed row.id (afterOutcome t.cfg s.now row result)).2
  /-- It takes no time. -/
  now : s'.now = s.now
  /-- Nothing is delivered. -/
  journal : s'.journal = s.journal

/-- The tick has the row whose outcome is recorded. -/
theorem Recorded.mem {s s' : Relay} {t : Tick} {row : OutboxRow}
    {result : Except Failure Receipt} (h : Recorded s s' t row result) :
    t ∈ s.ticks ∧ row ∈ t.rows := by
  obtain ⟨before, after, rest, hold, hf, -⟩ := h.ticks
  exact ⟨mem_of_split hold, Tick.mem_rows_of_landed hf⟩

/-- The ticks go on. -/
theorem Recorded.trail {s s' : Relay} {t : Tick} {row : OutboxRow}
    {result : Except Failure Receipt} (h : Recorded s s' t row result) :
    Trail s'.ticks s.ticks := by
  obtain ⟨before, after, rest, hold, hf, hnew⟩ := h.ticks
  rw [hold, hnew]
  exact trail_replace (trails_record t hf)

/-- Nothing happened that concerns the rows, but that published ones may be gone. -/
structure Quiet (s s' : Relay) : Prop extends SameBooks s s' where
  /-- No row is new or changed. -/
  table : s'.table.Sublist s.table
  /-- A row that is gone was published. -/
  gone : ∀ r ∈ s.table, r ∉ s'.table → r.status = .published
  /-- The ticks go on. -/
  ticks : Trail s'.ticks s.ticks
  /-- Time may pass. -/
  now : s.now ≤ s'.now
  /-- It passes only while every tick waits for a send. -/
  waits : s'.now = s.now ∨ ∀ t ∈ s.ticks, t.waitsUntil s'.now
  /-- What is delivered is no message for a row. -/
  journal : ∃ others, s'.journal = s.journal ++ others ∧ ∀ e ∈ others, e.origin = none

/-- What a step has done to the rows and the ticks. -/
inductive Effect (pubs : Set PublisherConfig) (b : Broker) (s s' : Relay) : Prop where
  /-- A row was appended. -/
  | appended (row : OutboxRow) (h : Appended s s' row)
  /-- A batch was claimed. -/
  | claimed (cfg : PublisherConfig) (hcfg : cfg ∈ pubs) (olderThan : Instant) (t : Tick)
      (h : Claimed b cfg olderThan s s' t)
  /-- A message was delivered. -/
  | delivered (t : Tick) (row : OutboxRow) (partition : Int) (h : Delivered b s s' t row partition)
  /-- An outcome was recorded. -/
  | recorded (t : Tick) (row : OutboxRow) (result : Except Failure Receipt)
      (h : Recorded s s' t row result)
  /-- Nothing else concerns rows, but that published ones may be gone. -/
  | quiet (h : Quiet s s')

/-! ## Units of work and the outbox -/

/-- The limit of stale claims, where there is one, is the time less the rounded span. -/
theorem eq_of_before {now olderThan : Instant} {span : Span}
    (h : now.before span = .ok olderThan) : olderThan = now - span.rounded := by
  unfold Instant.before Instant.dated at h
  split at h
  · exact (Except.ok.inj h).symm
  · cases h

/-- Stale claims are taken back and a batch is claimed, or nothing happens to the outbox. -/
theorem table_claim {script : DbScript} (hscript : FairScript script) (cfg : PublisherConfig)
    (sends : List (Outcome String)) :
    (s.claim cfg b script sends).table = s.table ∨
      ∃ olderThan, s.now.before cfg.staleAfter = .ok olderThan ∧
        (s.claim cfg b script sends).table =
          ((s.table.releaseStale olderThan cfg.maxRetries).2.claim cfg.batch s.now).2 := by
  unfold Relay.claim Relay.transact
  rcases run_claimBatch (s := { s.desk with script }) hscript cfg with
    ⟨e, hresult, hstored, -⟩ | ⟨rows, outbox, hresult, hstored, olderThan, hold, hclaim, -⟩
  · simp only [hresult]
    exact .inl (congrArg Database.outbox hstored)
  · simp only [hresult]
    have houtbox := congrArg Prod.snd hclaim
    exact .inr ⟨olderThan, hold, (congrArg Database.outbox hstored).trans houtbox⟩

/-- An outcome is recorded in the claimed row of its identifier, or not at all. -/
theorem table_reconcile {script : DbScript} (hscript : FairScript script) (cfg : PublisherConfig)
    (row : OutboxRow) (result : Except Failure Receipt) :
    (s.transact script (reconcile cfg row result)).2.table = s.table ∨
      (s.transact script (reconcile cfg row result)).2.table =
        (s.table.changeClaimed row.id (afterOutcome cfg s.now row result)).2 := by
  rcases run_reconcile (s := { s.desk with script }) hscript cfg row result with
    ⟨e, -, hstored, -⟩ | ⟨published, outbox, -, hstored, houtbox, -⟩
  · exact .inl (congrArg Database.outbox hstored)
  · refine .inr ((congrArg Database.outbox hstored).trans (houtbox.trans ?_))
    cases result <;> rfl

/-- A cleanup removes the rows published before its cutoff, or none. -/
theorem table_cleanup {script : DbScript} (hscript : FairScript script) (cfg : PublisherConfig) :
    (s.transact script (cleanup cfg)).2.table = s.table ∨
      ∃ cutoff, s.now.before cfg.retention = .ok cutoff ∧
        (s.transact script (cleanup cfg)).2.table = (s.table.purge cutoff).2 := by
  rcases run_cleanup (s := { s.desk with script }) hscript cfg with
    ⟨e, -, hstored, -⟩ | ⟨n, outbox, -, hstored, cutoff, hcutoff, houtbox, -⟩
  · exact .inl (congrArg Database.outbox hstored)
  · exact .inr ⟨cutoff, hcutoff, (congrArg Database.outbox hstored).trans houtbox⟩

/-! ## From steps to effects -/

/-- A step that only moves ticks along concerns no row. -/
theorem quiet_of_trail (hbooks : SameBooks s s') (htable : s'.table = s.table)
    (hticks : Trail s'.ticks s.ticks) (hnow : s'.now = s.now) (hjournal : s'.journal = s.journal) :
    Quiet s s' where
  toSameBooks := hbooks
  table := by rw [htable]
  gone r hr hgone := by
    rw [htable] at hgone
    exact absurd hr hgone
  ticks := hticks
  now := Int.le_of_eq hnow.symm
  waits := .inl hnow
  journal := ⟨[], by rw [hjournal, List.append_nil], fun e he => absurd he List.not_mem_nil⟩

/-- An event that is appended is the row that was added. -/
theorem appended_append (eventType topic payload : String) (key : Option String)
    (createdAt : Instant) :
    Appended s (s.append eventType topic payload key createdAt)
      (s.table.append eventType topic payload key createdAt).1 where
  fresh := rfl
  above _ hr := Outbox.lt_append_id eventType topic payload key createdAt hr
  table := rfl
  births := rfl
  serial := rfl
  ticks := rfl
  now := rfl
  claims := rfl
  claimLog := rfl
  journal := rfl

/-- A batch is claimed, or the transaction fails and there is no tick. -/
theorem claimed_or_failed (b : Broker) (cfg : PublisherConfig) {script : DbScript}
    (hscript : FairScript script) (sends : List (Outcome String)) :
    (∃ olderThan t, Claimed b cfg olderThan s (s.claim cfg b script sends) t) ∨
      SameBooks s (s.claim cfg b script sends) ∧ (s.claim cfg b script sends).table = s.table ∧
        (s.claim cfg b script sends).ticks = s.ticks ∧ (s.claim cfg b script sends).now = s.now ∧
        (s.claim cfg b script sends).journal = s.journal := by
  unfold Relay.claim Relay.transact
  rcases run_claimBatch (s := { s.desk with script }) hscript cfg with
    ⟨e, hresult, hstored, -⟩ | ⟨rows, outbox, hresult, hstored, olderThan, hold, hclaim, -⟩
  · simp only [hresult]
    exact .inr ⟨⟨rfl, rfl, rfl, rfl⟩, congrArg Database.outbox hstored, trivial, rfl, trivial⟩
  · simp only [hresult]
    obtain ⟨hrows, hflights⟩ := exists_launchAll cfg b s.now rows sends
    have hbatch := congrArg Prod.fst hclaim
    have houtbox := congrArg Prod.snd hclaim
    refine .inl ⟨olderThan, _,
      { limit := hold
        table := (congrArg Database.outbox hstored).trans houtbox
        ticks := rfl
        cfg_eq := rfl
        number := rfl
        claimedAt := rfl
        serial_eq := rfl
        rows := hrows.trans hbatch
        flights := hflights
        now := rfl
        births := rfl
        serial := rfl
        claims := rfl
        claimLog := ?_
        journal := rfl }⟩
    exact congrArg (fun rows : List OutboxRow =>
      rows.map (fun row => (s.serial row.id, s.claims)) ++ s.claimLog) hrows.symm

/-- A claim takes a batch, or fails and does nothing. -/
theorem effect_claim {cfg : PublisherConfig} (hcfg : cfg ∈ pubs) {script : DbScript}
    (hscript : FairScript script) (sends : List (Outcome String)) :
    Effect pubs b s (s.claim cfg b script sends) := by
  rcases claimed_or_failed (s := s) b cfg hscript sends with
    ⟨olderThan, t, hclaimed⟩ | ⟨hbooks, htable, hticks, hnow, hjournal⟩
  · exact .claimed cfg hcfg olderThan t hclaimed
  · exact .quiet (quiet_of_trail hbooks htable (hticks ▸ .refl _) hnow hjournal)

/-- A send that ends delivers its message, or does nothing to the rows. -/
theorem effect_land {before after : List Tick} {t : Tick} (ht : s.ticks = before ++ t :: after)
    {fs gs : List Flight} {row : OutboxRow} {due : Instant} {ending : Ending}
    (hf : t.flights = fs ++ .airborne row due ending :: gs) (result : Except Failure Receipt) :
    Effect pubs b s ((s.deliverIf b t row ending).withTicks (before ++
      { t with flights := fs ++ .landed row result :: gs } :: after)) := by
  have htrail : Trail (before ++ { t with flights := fs ++ .landed row result :: gs } :: after)
      s.ticks := by
    rw [ht]
    exact trail_replace (trails_land t hf result)
  cases ending with
  | accept partition =>
    exact .delivered t row partition
      { births := rfl
        serial := rfl
        claims := rfl
        claimLog := rfl
        tick := mem_of_split ht
        airborne := ⟨due, _, mem_of_split hf, .inl rfl⟩
        journal := rfl
        table := rfl
        ticks := htrail
        now := rfl }
  | vouch receipt => exact .quiet (quiet_of_trail ⟨rfl, rfl, rfl, rfl⟩ rfl htrail rfl rfl)
  | fail cause => exact .quiet (quiet_of_trail ⟨rfl, rfl, rfl, rfl⟩ rfl htrail rfl rfl)

/-- An outcome is recorded, or the transaction fails and its tick dies. -/
theorem recorded_or_died {before after : List Tick} {t : Tick}
    (ht : s.ticks = before ++ t :: after) (hover : nextDue? t.flights = none)
    {row : OutboxRow} {result : Except Failure Receipt} {rest : List Flight}
    (hf : t.flights = .landed row result :: rest) {script : DbScript}
    (hscript : FairScript script)
    (hs' : s' =
      (let r := s.transact script (reconcile t.cfg row result)
       r.2.withTicks (before ++ (match r.1 with
        | .ok _ => [{ t with flights := rest }]
        | .error _ => []) ++ after))) :
    Recorded s s' t row result ∨
      SameBooks s s' ∧ s'.table = s.table ∧ s'.ticks = before ++ after ∧ s'.now = s.now ∧
        s'.journal = s.journal := by
  subst hs'
  unfold Relay.transact
  rcases run_reconcile (s := { s.desk with script }) hscript t.cfg row result with
    ⟨e, hresult, hstored, -⟩ | ⟨published, outbox, hresult, hstored, houtbox, -⟩
  · simp only [hresult, List.append_nil]
    exact .inr ⟨⟨rfl, rfl, rfl, rfl⟩, congrArg Database.outbox hstored, rfl, rfl, rfl⟩
  · simp only [hresult, List.append_assoc, List.singleton_append]
    exact .inl
      { births := rfl
        serial := rfl
        claims := rfl
        claimLog := rfl
        ticks := ⟨before, after, rest, ht, hf, rfl⟩
        landed := hover
        table := by
          refine (congrArg Database.outbox hstored).trans (houtbox.trans ?_)
          cases result <;> rfl
        now := rfl
        journal := rfl }

/-- An outcome is recorded, or its transaction fails and its tick goes on. -/
theorem effect_record {before after : List Tick} {t : Tick}
    (ht : s.ticks = before ++ t :: after) (hover : nextDue? t.flights = none)
    {row : OutboxRow} {result : Except Failure Receipt} {rest : List Flight}
    (hf : t.flights = .landed row result :: rest) {script : DbScript}
    (hscript : FairScript script) :
    Effect pubs b s
      (let r := s.transact script (reconcile t.cfg row result)
       r.2.withTicks (before ++ (match r.1 with
        | .ok _ => [{ t with flights := rest }]
        | .error _ => []) ++ after)) := by
  rcases recorded_or_died ht hover hf hscript rfl with
    hrecorded | ⟨hbooks, htable, hticks, hnow, hjournal⟩
  · exact .recorded t row result hrecorded
  · refine .quiet (quiet_of_trail hbooks htable ?_ hnow hjournal)
    rw [hticks, ht]
    exact trail_remove before after t

/-- A cleanup removes published rows at most. -/
theorem effect_clean (cfg : PublisherConfig) {script : DbScript} (hscript : FairScript script) :
    Effect pubs b s (s.transact script (cleanup cfg)).2 := by
  rcases table_cleanup (s := s) hscript cfg with htable | ⟨cutoff, -, htable⟩
  · exact .quiet (quiet_of_trail ⟨rfl, rfl, rfl, rfl⟩ htable (.refl _) rfl rfl)
  · exact .quiet
      { births := rfl
        serial := rfl
        claims := rfl
        claimLog := rfl
        table := by
          rw [htable]
          exact Outbox.purge_sublist s.table cutoff
        gone := fun r hr hgone => Outbox.status_of_purged hr fun h => hgone (htable ▸ h)
        ticks := .refl _
        now := Int.le_refl _
        waits := .inl rfl
        journal := ⟨[], (List.append_nil _).symm, fun e he => absurd he List.not_mem_nil⟩ }

/-- Every step does one of these things to the rows and the ticks. -/
theorem effect_of_step (h : Step pubs b s s') : Effect pubs b s s' := by
  cases h with
  | append eventType topic payload key createdAt =>
    exact .appended _ (appended_append eventType topic payload key createdAt)
  | claim hcfg hscript hsends => exact effect_claim hcfg hscript _
  | land ht hf hdue => exact effect_land ht hf _
  | slip ht hf htime hp =>
    exact .delivered _ _ _
      { births := rfl
        serial := rfl
        claims := rfl
        claimLog := rfl
        tick := ht
        airborne := ⟨_, _, hf, .inr ⟨htime, hp⟩⟩
        journal := rfl
        table := rfl
        ticks := .refl _
        now := rfl }
  | record ht hover hf hscript => exact effect_record ht hover hf hscript
  | @leave before after t ht =>
    refine .quiet (quiet_of_trail ⟨rfl, rfl, rfl, rfl⟩ rfl ?_ rfl rfl)
    rw [ht]
    exact trail_remove before after t
  | clean hcfg hscript => exact effect_clean _ hscript
  | other stream fields maxlen approximate =>
    exact .quiet
      { births := rfl
        serial := rfl
        claims := rfl
        claimLog := rfl
        table := List.Sublist.refl _
        gone := fun r hr hgone => absurd hr hgone
        ticks := .refl _
        now := Int.le_refl _
        waits := .inl rfl
        journal := ⟨[⟨stream, fields, none⟩], rfl, by simp⟩ }
  | pass hle hwait =>
    exact .quiet
      { births := rfl
        serial := rfl
        claims := rfl
        claimLog := rfl
        table := List.Sublist.refl _
        gone := fun r hr hgone => absurd hr hgone
        ticks := .refl _
        now := hle
        waits := .inr hwait
        journal := ⟨[], (List.append_nil _).symm, fun e he => absurd he List.not_mem_nil⟩ }

/-! ## What every step leaves as it is -/

/-- Rows that are there keep their numbers. -/
theorem serial_of_step (h : Step pubs b s s') {r : OutboxRow} (hr : r ∈ s.table) :
    s'.serial r.id = s.serial r.id := by
  cases effect_of_step h with
  | appended row ha => exact ha.serial_of_mem hr
  | claimed cfg hcfg olderThan t hc => rw [hc.serial]
  | delivered t row partition hd => rw [hd.serial]
  | recorded t row result hrec => rw [hrec.serial]
  | quiet hq => rw [hq.serial]

/-- Rows that were appended stay appended. -/
theorem births_of_step (h : Step pubs b s s') : ∃ new, s'.births = s.births ++ new := by
  cases effect_of_step h with
  | appended row ha => exact ⟨[row], ha.births⟩
  | claimed cfg hcfg olderThan t hc => exact ⟨[], by rw [hc.births, List.append_nil]⟩
  | delivered t row partition hd => exact ⟨[], by rw [hd.births, List.append_nil]⟩
  | recorded t row result hrec => exact ⟨[], by rw [hrec.births, List.append_nil]⟩
  | quiet hq => exact ⟨[], by rw [hq.births, List.append_nil]⟩

/-- Entries of the journal stay there. -/
theorem journal_of_step (h : Step pubs b s s') : ∃ new, s'.journal = s.journal ++ new := by
  cases effect_of_step h with
  | appended row ha => exact ⟨[], by rw [ha.journal, List.append_nil]⟩
  | claimed cfg hcfg olderThan t hc => exact ⟨[], by rw [hc.journal, List.append_nil]⟩
  | delivered t row partition hd => exact ⟨_, hd.journal⟩
  | recorded t row result hrec => exact ⟨[], by rw [hrec.journal, List.append_nil]⟩
  | quiet hq =>
    obtain ⟨others, hjournal, -⟩ := hq.journal
    exact ⟨others, hjournal⟩

/-- A tick was there before, or it has just claimed its batch. -/
theorem tick_of_step (h : Step pubs b s s') {t' : Tick} (ht' : t' ∈ s'.ticks) :
    (∃ t ∈ s.ticks, t'.Trails t) ∨
      ∃ cfg ∈ pubs, ∃ olderThan, Claimed b cfg olderThan s s' t' := by
  cases effect_of_step h with
  | appended row ha =>
    rw [ha.ticks] at ht'
    exact .inl ⟨t', ht', .refl t'⟩
  | claimed cfg hcfg olderThan t hc =>
    rcases hc.mem_ticks ht' with ht' | rfl
    · exact .inl ⟨t', ht', .refl t'⟩
    · exact .inr ⟨cfg, hcfg, olderThan, hc⟩
  | delivered t row partition hd => exact .inl (hd.ticks.each t' ht')
  | recorded t row result hrec => exact .inl (hrec.trail.each t' ht')
  | quiet hq => exact .inl (hq.ticks.each t' ht')

end Publisher

end EventRelay
