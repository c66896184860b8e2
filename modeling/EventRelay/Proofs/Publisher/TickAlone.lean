import EventRelay.Proofs.Publisher.Completion
import EventRelay.Proofs.Publisher.Verdicts
import EventRelay.Proofs.Store.Claiming

/-!
# What a tick alone comes to

A tick that runs alone takes stale claims back, claims a batch, and gives each row of it the verdict
of the row's own send.

* `Solo`: a tick alone, from its claim to its end, given what becomes of the send of each row.
* `exists_solo`: such a tick can run to its end.
* `accomplished_of_solo`: it ends within the time limit of one send; each row ends by its own
  verdict, and the others are as they were.
* `tick_alone`: both, and that a row ends alike whatever becomes of the others.
-/

namespace EventRelay

namespace Publisher

open Relay

variable {cfg : PublisherConfig} {b : Broker} {plan : Int → Outcome String}
variable {s s' u : Relay} {n : Nat} {rows : List OutboxRow} {t : Tick}

/-! ## A tick from its claim to its end -/

/-- A tick that runs alone and has published so many rows at its end: it claims a batch, sends it as
planned, records all outcomes and returns.  No transaction fails. -/
inductive Solo (cfg : PublisherConfig) (b : Broker) (plan : Int → Outcome String) (s : Relay) :
    Nat → Relay → Prop where
  | run {script : DbScript} (hscript : FairScript script) {rows : List OutboxRow}
      (hok : (s.transact script (claimBatch cfg)).1 = .ok rows) {n : Nat} {u : Relay}
      (hcourse : Course b (s.claim cfg b script (rows.map fun row => plan row.id)) n u) {t : Tick}
      (hlast : u.ticks = [t]) (hdone : t.flights = []) : Solo cfg b plan s n (u.withTicks [])

/-- The instant before which claims are stale. -/
def staleLimit (cfg : PublisherConfig) (now : Instant) : Instant := now - cfg.staleAfter.rounded

/-- The outbox once stale claims are taken back. -/
def releasedTable (cfg : PublisherConfig) (s : Relay) : Outbox :=
  s.table.map (Outbox.afterRelease (staleLimit cfg s.now) cfg.maxRetries)

/-- The rows that a tick claims, as they are before. -/
def taken (cfg : PublisherConfig) (s : Relay) : List OutboxRow :=
  (releasedTable cfg s).chosen cfg.batch

/-- A row after a tick alone that ended at an instant: if its claim was stale it is taken back, and
if it is claimed then it has its verdict. -/
def afterTick (cfg : PublisherConfig) (b : Broker) (plan : Int → Outcome String) (s : Relay)
    (ended : Instant) (r : OutboxRow) : OutboxRow :=
  let q := Outbox.afterRelease (staleLimit cfg s.now) cfg.maxRetries r
  if q ∈ taken cfg s then
    afterVerdict cfg ended (verdict cfg b plan q) (Outbox.claimed s.now q)
  else q

/-- What a claim that goes through does. -/
structure Takes (cfg : PublisherConfig) (b : Broker) (s : Relay) (sends : List (Outcome String))
    (rows : List OutboxRow) (u : Relay) (t : Tick) : Prop where
  /-- There is a date before which claims are stale. -/
  dated : s.now.before cfg.staleAfter = .ok (staleLimit cfg s.now)
  /-- The rows are claimed. -/
  rows_eq : rows = (taken cfg s).map (Outbox.claimed s.now)
  /-- They are claimed in the outbox. -/
  table : u.table = ((releasedTable cfg s).claim cfg.batch s.now).2
  /-- There is one tick more. -/
  ticks : u.ticks = s.ticks ++ [t]
  /-- It has the settings of its publisher. -/
  cfg_eq : t.cfg = cfg
  /-- Its sends are started. -/
  flights : t.flights = (launchAll cfg b s.now (fun span => s.now + span) rows sends).1
  /-- It takes no time. -/
  now : u.now = s.now

/-- A claim that goes through leaves a tick with the batch. -/
theorem exists_takes {script : DbScript} (hscript : FairScript script) {rows : List OutboxRow}
    (hok : (s.transact script (claimBatch cfg)).1 = .ok rows) (sends : List (Outcome String)) :
    ∃ t, Takes cfg b s sends rows (s.claim cfg b script sends) t := by
  unfold Relay.claim
  unfold Relay.transact at hok ⊢
  rcases run_claimBatch (s := { s.desk with script }) hscript cfg with
    ⟨e, hresult, -, -⟩ | ⟨rows', outbox, hresult, hstored, olderThan, hold, hclaim, -⟩
  · exact absurd (hresult.symm.trans hok) nofun
  cases Except.ok.inj (hresult.symm.trans hok)
  obtain rfl : olderThan = staleLimit cfg s.now := eq_of_before hold
  simp only [hresult]
  exact ⟨_,
    { dated := hold
      rows_eq := congrArg Prod.fst hclaim
      table := (congrArg Database.outbox hstored).trans (congrArg Prod.snd hclaim)
      ticks := rfl
      cfg_eq := rfl
      flights := rfl
      now := rfl }⟩

/-- Taking claims back leaves every identifier once. -/
theorem ids_releasedTable (cfg : PublisherConfig) (hids : (s.table.map (·.id)).Nodup) :
    ((releasedTable cfg s).map (·.id)).Nodup :=
  hids.sublist (Outbox.releaseStale_descends s.table (staleLimit cfg s.now) cfg.maxRetries).ids

/-- What a claim takes are different rows under a claim. -/
theorem batch_of_takes (hids : (s.table.map (·.id)).Nodup) {sends : List (Outcome String)}
    (h : Takes cfg b s sends rows u t) : Batch u.table rows := by
  have hreleased := ids_releasedTable cfg hids
  constructor
  case ids =>
    rw [h.table]
    exact hreleased.sublist (Outbox.claim_descends _ _ _).ids
  case mem =>
    intro row hrow
    rw [h.rows_eq] at hrow
    obtain ⟨q, hq, rfl⟩ := List.mem_map.mp hrow
    rw [h.table, Outbox.claim_snd (Outbox.distinct_of_nodup hreleased)]
    exact List.mem_map.mpr ⟨q, (Outbox.mem_of_mem_chosen hq).1, if_pos hq⟩
  case nodup =>
    rw [h.rows_eq]
    refine List.Nodup.of_map (·.id) ?_
    rw [List.map_map]
    exact Outbox.nodup_chosen_ids hreleased
  case status =>
    intro row hrow
    rw [h.rows_eq] at hrow
    obtain ⟨q, -, rfl⟩ := List.mem_map.mp hrow
    rfl

/-- At its claim a tick is under way, with no row done. -/
theorem underway_of_takes (htime : 0 < cfg.sendTimeout) (hfree : s.ticks = [])
    {sends : List (Outcome String)} (hsends : sends = rows.map fun row => plan row.id)
    (h : Takes cfg b s sends rows u t) :
    Underway cfg b plan s.now u.table rows 0 u t [] := by
  have hflights := h.flights
  rw [hsends] at hflights
  exact
    { ticks := by
        rw [h.ticks, hfree]
        rfl
      cfg_eq := h.cfg_eq
      rows_eq := by
        unfold Tick.rows
        rw [h.flights, (exists_launchAll cfg b s.now rows sends).1]
        rfl
      sends := by
        rw [hflights]
        exact bears_launchAll plan htime s.now rows
      landed := fun hdone => absurd rfl hdone
      table := by
        rw [judged_nil]
        exact (List.map_id _).symm
      count := rfl
      since := Int.le_of_eq h.now.symm
      within := by
        rw [h.now]
        unfold Instant Span at *
        omega }

/-- What a tick alone has come to at its end. -/
structure Accomplished (cfg : PublisherConfig) (b : Broker) (plan : Int → Outcome String)
    (s : Relay) (n : Nat) (s' : Relay) : Prop where
  /-- It claims the first rows of the queue that there is once stale claims are taken back. -/
  queue : ∃ queue, Outbox.IsQueue (releasedTable cfg s) queue ∧
    taken cfg s = Outbox.takeUpTo cfg.batch queue
  /-- Time does not go back. -/
  since : s.now ≤ s'.now
  /-- It takes no longer than one send may. -/
  within : s'.now ≤ s.now + cfg.sendTimeout
  /-- Stale claims are taken back, rows that are claimed have their verdicts, and every other row is
  as it was. -/
  table : s'.table = s.table.map (afterTick cfg b plan s s'.now)
  /-- What it returns is the number of its rows that are published. -/
  count : n = publishedAmong cfg b plan (taken cfg s)
  /-- No tick is left. -/
  ticks : s'.ticks = []

/-- In the end the rows of the batch have had their verdicts. -/
theorem map_judged (hids : (s.table.map (·.id)).Nodup)
    (hrows : rows = (taken cfg s).map (Outbox.claimed s.now)) (ended : Instant) :
    ((releasedTable cfg s).claim cfg.batch s.now).2.map (judged cfg b plan ended rows) =
      s.table.map (afterTick cfg b plan s ended) := by
  have hdistinct := Outbox.distinct_of_nodup (ids_releasedTable cfg hids)
  rw [Outbox.claim_snd hdistinct, List.map_map, releasedTable, List.map_map]
  refine List.map_congr_left fun r hr => ?_
  have hq : Outbox.afterRelease (staleLimit cfg s.now) cfg.maxRetries r ∈ releasedTable cfg s :=
    List.mem_map_of_mem hr
  unfold afterTick
  dsimp only [Function.comp_apply]
  generalize Outbox.afterRelease (staleLimit cfg s.now) cfg.maxRetries r = q at hq ⊢
  by_cases htaken : q ∈ taken cfg s
  · rw [if_pos htaken]
    have hdone : Outbox.claimed s.now q ∈ rows := hrows ▸ List.mem_map_of_mem htaken
    have hclaimed : (if q ∈ (releasedTable cfg s).chosen cfg.batch then Outbox.claimed s.now q
        else q) = Outbox.claimed s.now q := if_pos htaken
    exact (congrArg _ hclaimed).trans (if_pos hdone)
  · rw [if_neg htaken]
    have hkept : (if q ∈ (releasedTable cfg s).chosen cfg.batch then Outbox.claimed s.now q
        else q) = q := if_neg htaken
    refine (congrArg _ hkept).trans (if_neg fun hdone => ?_)
    rw [hrows] at hdone
    obtain ⟨p, hp, rfl⟩ := List.mem_map.mp hdone
    have hsame : p = Outbox.claimed s.now p :=
      hdistinct p (Outbox.mem_of_mem_chosen hp).1 _ hq rfl
    exact htaken (hsame ▸ hp)

/-- The claim itself makes no difference to what is published. -/
theorem publishedAmong_claimed (now : Instant) (rows : List OutboxRow) :
    publishedAmong cfg b plan (rows.map (Outbox.claimed now)) = publishedAmong cfg b plan rows := by
  unfold publishedAmong
  rw [List.countP_map]
  rfl

/-- A tick alone has come to what it should at its end. -/
theorem accomplished_of_solo (htime : 0 < cfg.sendTimeout) (hfree : s.ticks = [])
    (hids : (s.table.map (·.id)).Nodup) (h : Solo cfg b plan s n s') :
    Accomplished cfg b plan s n s' := by
  cases h with
  | @run script hscript rows hok n u hcourse t' hlast hdone =>
    obtain ⟨t, htakes⟩ := exists_takes (b := b) hscript hok (rows.map fun row => plan row.id)
    have hbatch := batch_of_takes hids htakes
    obtain ⟨t'', done, hunder⟩ := underway_of_course hbatch
      (underway_of_takes htime hfree rfl htakes) hcourse
    obtain rfl : t'' = t' := List.singleton_inj.mp (hunder.ticks.symm.trans hlast)
    obtain rfl : rows = done := by
      rw [hunder.rows_eq, Tick.rows, hdone]
      exact List.append_nil _
    rw [Nat.zero_add] at hunder
    exact
      { queue := ⟨_, Outbox.isQueue_queue (ids_releasedTable cfg hids), rfl⟩
        since := hunder.since
        within := hunder.within
        table := by
          refine hunder.table.trans ?_
          rw [htakes.table]
          exact map_judged hids htakes.rows_eq u.now
        count := by
          rw [hunder.count]
          nth_rewrite 1 [htakes.rows_eq]
          exact publishedAmong_claimed s.now _
        ticks := rfl }

/-- A row that is claimed can have any verdict, if it has room for one round. -/
theorem recordable_of_taken (hroom : ∀ r ∈ s.table, HasRoom 1 r) {row : OutboxRow}
    (hrow : row ∈ (taken cfg s).map (Outbox.claimed s.now)) : Recordable row := by
  obtain ⟨q, hq, rfl⟩ := List.mem_map.mp hrow
  obtain ⟨r, hr, rfl⟩ := List.mem_map.mp (Outbox.mem_of_mem_chosen hq).1
  obtain ⟨hid, hleast, hmost⟩ := hroom r hr
  have hcount := Outbox.retryCount_afterRelease (staleLimit cfg s.now) cfg.maxRetries r
  have hsame := OutboxRow.id_eq_of_asAppended
    (Outbox.asAppended_afterRelease (staleLimit cfg s.now) cfg.maxRetries r)
  refine ⟨hsame ▸ hid, ?_⟩
  unfold Scalar.fitsWord
  simp only [Bool.and_eq_true, decide_eq_true_eq]
  change _ ≤ (Outbox.afterRelease _ _ r).retryCount + 1 ∧
    (Outbox.afterRelease _ _ r).retryCount + 1 ≤ _
  omega

/-- A tick alone can run to its end. -/
theorem exists_solo (htime : 0 < cfg.sendTimeout) (hfree : s.ticks = [])
    (htellable : Tellable cfg) {olderThan : Instant}
    (hold : s.now.before cfg.staleAfter = .ok olderThan) (hroom : ∀ r ∈ s.table, HasRoom 1 r) :
    ∃ n s', Solo cfg b plan s n s' := by
  obtain ⟨rows, hok⟩ := ok_claimBatch htellable.batch htellable.retries
    { s.desk with script := .none } rfl hold
  obtain ⟨t, htakes⟩ := exists_takes (b := b) (s := s) fairScript_none hok
    (rows.map fun row => plan row.id)
  have hunder := underway_of_takes htime hfree rfl htakes
  obtain ⟨v, t', hlanding, hv, hover, hrows, hcfg, -, -, -⟩ :=
    exists_landed b _ hunder.ticks rfl hunder.within fun row due ending hf => (hunder.sends _ hf).1
  have hrecordable : ∀ row ∈ t'.rows, Recordable row := by
    intro row hrow
    rw [hrows, ← (List.nil_append t.rows), ← hunder.rows_eq, htakes.rows_eq] at hrow
    exact recordable_of_taken hroom hrow
  obtain ⟨n, w, hrecording, hw, -⟩ := exists_recorded b hv rfl hover hrecordable
  exact ⟨_, _, .run fairScript_none hok (hlanding.trans hrecording) hw rfl⟩

/-- What a send comes to, as a row tells it, is the same for both. -/
structure SameVerdict (r q : OutboxRow) : Prop where
  /-- They stand alike. -/
  status : r.status = q.status
  /-- They have had as many attempts. -/
  retryCount : r.retryCount = q.retryCount
  /-- They tell the same failure. -/
  errorMessage : r.errorMessage = q.errorMessage

/-- A tick changes no identifier. -/
theorem id_afterTick (ended : Instant) (r : OutboxRow) :
    (afterTick cfg b plan s ended r).id = r.id := by
  have hreleased := OutboxRow.id_eq_of_asAppended
    (Outbox.asAppended_afterRelease (staleLimit cfg s.now) cfg.maxRetries r)
  unfold afterTick
  dsimp only
  split
  · rw [id_afterVerdict]
    exact hreleased
  · exact hreleased

/-- Plans that agree on a row let it end alike, whenever the ticks end. -/
theorem sameVerdict_afterTick {plan' : Int → Outcome String} {r : OutboxRow}
    (hplan : plan r.id = plan' r.id) (ended ended' : Instant) :
    SameVerdict (afterTick cfg b plan s ended r) (afterTick cfg b plan' s ended' r) := by
  have hid := OutboxRow.id_eq_of_asAppended
    (Outbox.asAppended_afterRelease (staleLimit cfg s.now) cfg.maxRetries r)
  unfold afterTick
  dsimp only
  have hverdict : verdict cfg b plan _ = verdict cfg b plan' _ := verdict_congr (hid.symm ▸ hplan)
  rw [hverdict]
  split
  · rcases verdict cfg b plan' (Outbox.afterRelease (staleLimit cfg s.now) cfg.maxRetries r) with
      _ | cause
    · exact ⟨rfl, rfl, rfl⟩
    · exact ⟨rfl, rfl, rfl⟩
  · exact ⟨rfl, rfl, rfl⟩

/-- Whatever becomes of other sends, a row ends alike if its own send does. -/
theorem sameVerdict_of_accomplished {plan' : Int → Outcome String} {n' : Nat} {u' : Relay}
    (hids : (s.table.map (·.id)).Nodup) (h : Accomplished cfg b plan s n u)
    (h' : Accomplished cfg b plan' s n' u') {id : Int} (hplan : plan id = plan' id) :
    ∀ r ∈ u.table, ∀ q ∈ u'.table, r.id = id → q.id = id → SameVerdict r q := by
  intro r hr q hq hrid hqid
  rw [h.table] at hr
  rw [h'.table] at hq
  obtain ⟨r, hmem, rfl⟩ := List.mem_map.mp hr
  obtain ⟨q, hmem', rfl⟩ := List.mem_map.mp hq
  rw [id_afterTick] at hrid hqid
  obtain rfl : r = q := Outbox.distinct_of_nodup hids r hmem q hmem' (hrid.trans hqid.symm)
  exact sameVerdict_afterTick (hrid.symm ▸ hplan) _ _

/-! ## The theorem -/

/-- A tick that runs alone, with no failure of the database: it can run to its end, whatever is
planned for its sends; and however it does, it ends within the time limit of one send, gives every
row that it claims the verdict of the row's own send, leaves the others as they are once stale
claims are taken back, and returns the number of rows that it published.  How a row ends depends on
nothing that is planned for other rows.

The settings have to be such that the calendar has a date for the limit of stale claims and the
database takes their numbers, and the rows such that the database takes the attempts to come. -/
theorem tick_alone (plan : Int → Outcome String) (htime : 0 < cfg.sendTimeout)
    (hfree : s.ticks = []) (hids : (s.table.map (·.id)).Nodup) (htellable : Tellable cfg)
    {olderThan : Instant} (hold : s.now.before cfg.staleAfter = .ok olderThan)
    (hroom : ∀ r ∈ s.table, HasRoom 1 r) :
    (∃ n s', Solo cfg b plan s n s') ∧
    (∀ n s', Solo cfg b plan s n s' → Accomplished cfg b plan s n s') ∧
    ∀ plan' n u n' u', Solo cfg b plan s n u → Solo cfg b plan' s n' u' →
      ∀ id, plan id = plan' id →
        ∀ r ∈ u.table, ∀ q ∈ u'.table, r.id = id → q.id = id → SameVerdict r q :=
  ⟨exists_solo htime hfree htellable hold hroom,
    fun _ _ h => accomplished_of_solo htime hfree hids h,
    fun _ _ _ _ _ h h' _ hplan => sameVerdict_of_accomplished hids
      (accomplished_of_solo htime hfree hids h) (accomplished_of_solo htime hfree hids h') hplan⟩

/-! ## A mixed batch -/

/-- A publisher that gives rows up after two attempts. -/
def sternPublisher : PublisherConfig where
  batch := 5
  maxRetries := 2
  staleAfter := .ofSeconds 60
  sendTimeout := .ofSeconds 30
  retention := .ofSeconds 86400

/-- A relay with these rows in its outbox, and no tick. -/
def relayOn (rows : Outbox) : Relay :=
  { start emptyDesk with
    desk := { emptyDesk with stored := { Database.empty with outbox := rows } } }

/-- Four rows wait, one of them for its last attempt; one is under a claim an hour old, and one
under a claim of this instant. -/
def mixedOutbox : Outbox :=
  [Work.rowOf 1 none .pending .origin, Work.rowOf 2 none .pending .origin,
    { Work.rowOf 3 none .pending .origin with retryCount := 1 },
    Work.rowOf 4 none .pending .origin,
    { Work.rowOf 5 none .processing .origin with
      processedAt := some (.origin - Span.ofSeconds 3600) },
    { Work.rowOf 6 none .processing .origin with processedAt := some .origin }]

/-- The first send raises, the second hangs, the third is cancelled by the broker, the fourth takes
a while, and the fifth goes through at once. -/
def mixedPlan (id : Int) : Outcome String :=
  if id = 1 then ⟨0, .raise .noPartitions⟩
  else if id = 2 then ⟨.ofSeconds 3600, .through⟩
  else if id = 3 then ⟨.ofSeconds 1, .raise (.cancelled "by the broker")⟩
  else if id = 4 then ⟨.ofSeconds 29, .through⟩
  else ⟨0, .through⟩

/-- The rows that can be claimed once the stale claim is taken back. -/
def mixedQueue : List OutboxRow :=
  [Work.rowOf 1 none .pending .origin, Work.rowOf 2 none .pending .origin,
    { Work.rowOf 3 none .pending .origin with retryCount := 1 },
    Work.rowOf 4 none .pending .origin,
    { Work.rowOf 5 none .pending .origin with
      processedAt := some (.origin - Span.ofSeconds 3600), retryCount := 1 }]

/-- What a tick takes of the mixed outbox. -/
theorem taken_mixedOutbox : taken sternPublisher (relayOn mixedOutbox) = mixedQueue := by
  have hids : ((relayOn mixedOutbox).table.map (·.id)).Nodup := by decide
  have hqueue : Outbox.IsQueue (releasedTable sternPublisher (relayOn mixedOutbox)) mixedQueue :=
    Outbox.isQueue_of_perm (by decide +kernel) (by decide +kernel)
  have hunique := (Outbox.isQueue_queue (ids_releasedTable sternPublisher hids)).unique hqueue
  exact (congrArg (Outbox.takeUpTo 5) hunique).trans rfl

/-- What a row tells of its attempts. -/
def attemptsOf (r : OutboxRow) : Int × OutboxStatus × Int × Option String :=
  (r.id, r.status, r.retryCount, r.errorMessage)

/-- When a tick ends makes no difference to the attempts of rows. -/
theorem attemptsOf_afterTick (ended ended' : Instant) (r : OutboxRow) :
    attemptsOf (afterTick cfg b plan s ended r) = attemptsOf (afterTick cfg b plan s ended' r) := by
  have h : SameVerdict (afterTick cfg b plan s ended r) (afterTick cfg b plan s ended' r) :=
    sameVerdict_afterTick rfl ended ended'
  unfold attemptsOf
  rw [id_afterTick, id_afterTick, h.status, h.retryCount, h.errorMessage]

/-- A failure, a timeout and a cancellation cost their rows one attempt each, and two rows are
published, one of them after its stale claim was taken back. -/
theorem tick_alone_of_mixedOutbox :
    0 < sternPublisher.sendTimeout ∧ (relayOn mixedOutbox).ticks = [] ∧
    ((relayOn mixedOutbox).table.map (·.id)).Nodup ∧ Tellable sternPublisher ∧
    ∃ s', Solo sternPublisher ⟨3, none⟩ mixedPlan (relayOn mixedOutbox) 2 s' ∧
      s'.now ≤ (relayOn mixedOutbox).now + sternPublisher.sendTimeout ∧
      s'.table.map attemptsOf =
        [(1, .pending, 1, some "ZeroDivisionError: integer modulo by zero"),
          (2, .pending, 1, some "TimeoutError: "), (3, .failed, 2, some "CancelledError: "),
          (4, .published, 0, none), (5, .published, 1, none), (6, .processing, 0, none)] := by
  have hids : ((relayOn mixedOutbox).table.map (·.id)).Nodup := by decide
  have htellable : Tellable sternPublisher := ⟨by decide, by decide⟩
  have hroom : ∀ r ∈ (relayOn mixedOutbox).table, Scalar.fitsWord r.id = true ∧
      Scalar.leastWord ≤ r.retryCount ∧ r.retryCount + 2 * (1 : Nat) ≤ Scalar.greatestWord := by
    decide
  have hold : (relayOn mixedOutbox).now.before sternPublisher.staleAfter =
      .ok (staleLimit sternPublisher (relayOn mixedOutbox).now) := by
    decide +kernel
  obtain ⟨⟨n, s', hsolo⟩, haccomplished, -⟩ := tick_alone (b := ⟨3, none⟩) mixedPlan
    (by decide) rfl hids htellable hold
    fun r hr => ⟨(hroom r hr).1, (hroom r hr).2.1, (hroom r hr).2.2⟩
  have h := haccomplished n s' hsolo
  have hn : n = 2 := by
    rw [h.count, taken_mixedOutbox]
    decide +kernel
  refine ⟨by decide, rfl, hids, htellable, s', hn ▸ hsolo, h.within, ?_⟩
  rw [h.table, List.map_map]
  refine (List.map_congr_left fun r _ => attemptsOf_afterTick s'.now .origin r).trans ?_
  unfold afterTick
  rw [taken_mixedOutbox]
  decide +kernel

/-- A publisher whose claims are stale after three thousand years. -/
def patientPublisher : PublisherConfig :=
  { sternPublisher with staleAfter := .ofSeconds (Int.pow 10 11) }

/-- Before the calendar begins no claim can be stale: the tick of such a publisher fails, and the
row that waits is not sent. -/
theorem no_tick_of_patientPublisher :
    ¬ ∀ (cfg : PublisherConfig) (b : Broker) (plan : Int → Outcome String) (s : Relay),
      0 < cfg.sendTimeout → s.ticks = [] → (s.table.map (·.id)).Nodup →
      ∃ n s', Solo cfg b plan s n s' := by
  intro h
  obtain ⟨n, s', hsolo⟩ := h patientPublisher ⟨3, none⟩ mixedPlan
    (relayOn [Work.rowOf 1 none .pending .origin]) (by decide) rfl (List.nodup_singleton _)
  cases hsolo with
  | run hscript hok hcourse hlast hdone =>
    obtain ⟨t, htakes⟩ := exists_takes (b := ⟨3, none⟩) hscript hok []
    have hnone : (relayOn [Work.rowOf 1 none .pending .origin]).now.before
        patientPublisher.staleAfter = .error .noSuchDate := by
      decide +kernel
    exact absurd (hnone.symm.trans htakes.dated) nofun

end Publisher

end EventRelay
