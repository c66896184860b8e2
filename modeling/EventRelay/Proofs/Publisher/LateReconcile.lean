import EventRelay.Proofs.Publisher.Custody
import EventRelay.Proofs.Publisher.Play
import Mathlib.Data.Set.Insert

/-!
# Late outcomes

An outcome is recorded if the row is claimed, whoever claimed it.  Whether that is enough for a tick
to leave the claims of others alone depends on the limits of the publishers: no send may take
longer than a claim may last.

* `OwnClaimsOnly`: recording an outcome changes a row only under the tick's own claim.
* `RetriesGrow`: no step lowers the count of failed attempts of a row.
* `ownClaimsOnly_of_patient`, `retriesGrow_of_patient`: both hold where publishers are patient.
* `own_claims_iff`: and only there; otherwise a tick can outlive its claim.
-/

namespace EventRelay

namespace Publisher

open Relay

variable {pubs : Set PublisherConfig} {b : Broker} {s s' : Relay}

/-- A tick that records an outcome changes at most a row that is claimed, at the time at which the
tick claimed it, and that came under no other claim since. -/
def OwnClaimsOnly (pubs : Set PublisherConfig) (b : Broker) : Prop :=
  ∀ s, Reachable pubs b s → ∀ t ∈ s.ticks, ∀ row result rest,
    nextDue? t.flights = none → t.flights = .landed row result :: rest →
    ∀ script, FairScript script → ∀ r ∈ s.table,
      r ∉ (s.transact script (reconcile t.cfg row result)).2.table →
      r.status = .processing ∧ r.processedAt = some t.claimedAt ∧
        s.claimOf? (s.serial r.id) = some t.number

/-- No step lowers the count of failed attempts of a row. -/
def RetriesGrow (pubs : Set PublisherConfig) (b : Broker) : Prop :=
  ∀ s s', Reachable pubs b s → Step pubs b s s' → ∀ r ∈ s.table, ∀ r' ∈ s'.table,
    r'.id = r.id → r.retryCount ≤ r'.retryCount

/-! ## Where no send may take longer than a claim may last -/

/-- Patient publishers change rows under their own claims only. -/
theorem ownClaimsOnly_of_patient (hpatient : Patient pubs) : OwnClaimsOnly pubs b := by
  intro s hreach t ht row result rest hover hf script hscript r hr hchanged
  have hcustody := custody_of_reachable hpatient hreach
  have hdistinct := (filed_of_reachable hreach).numbered.ordered.distinct
  have hrow := Tick.mem_rows_of_landed hf
  have hsame : r = row := by
    refine hdistinct r hr row (hcustody.held t ht row hrow) ?_
    by_contra hid
    refine hchanged ?_
    rcases table_reconcile (s := s) hscript t.cfg row result with htable | htable
    · rw [htable]
      exact hr
    · rw [htable, Outbox.changeClaimed_snd]
      refine List.mem_map.mpr ⟨r, hr, ?_⟩
      rw [if_neg fun hhit => hid hhit.1]
  rw [hsame]
  exact ⟨hcustody.claimed t ht row hrow, hcustody.since t ht row hrow, hcustody.own t ht row hrow⟩

/-- The watchdog lowers no count of failed attempts. -/
theorem retryCount_afterRelease (olderThan : Instant) (maxRetries : Int) (r : OutboxRow) :
    r.retryCount ≤ (Outbox.afterRelease olderThan maxRetries r).retryCount := by
  unfold Outbox.afterRelease Outbox.released
  split
  · dsimp only
    split <;> exact Int.le_add_of_nonneg_right (by decide)
  · exact Int.le_refl _

/-- An outcome never writes a lower count than its tick knew. -/
theorem retryCount_afterOutcome (cfg : PublisherConfig) (now : Instant) (row : OutboxRow)
    (result : Except Failure Receipt) :
    row.retryCount ≤ (afterOutcome cfg now row result row).retryCount := by
  cases result with
  | ok receipt => exact Int.le_refl _
  | error cause => exact Int.le_add_of_nonneg_right (by decide)

/-- A claim lowers no count of failed attempts. -/
theorem retryCount_of_claimed (hfiled : Filed pubs b s) {cfg : PublisherConfig}
    {olderThan : Instant} {t : Tick} (hc : Claimed b cfg olderThan s s' t) {r r' : OutboxRow}
    (hr : r ∈ s.table) (hr' : r' ∈ s'.table) (hid : r'.id = r.id) :
    r.retryCount ≤ r'.retryCount := by
  have hordered := (Outbox.releaseStale_descends s.table olderThan cfg.maxRetries).ordered
    hfiled.numbered.ordered
  rw [hc.table, Outbox.claim_snd hordered.distinct] at hr'
  obtain ⟨q, hq, rfl⟩ := List.mem_map.mp hr'
  rw [Outbox.releaseStale_snd] at hq
  obtain ⟨p, hp, rfl⟩ := List.mem_map.mp hq
  have hpid : p.id = r.id := by
    rw [OutboxRow.id_eq_of_asAppended (Outbox.asAppended_of_claim _ _ _ _),
      OutboxRow.id_eq_of_asAppended (Outbox.asAppended_afterRelease _ _ _)] at hid
    exact hid
  have hgrow := retryCount_afterRelease olderThan cfg.maxRetries p
  rw [hfiled.numbered.ordered.distinct p hp r hr hpid] at hgrow ⊢
  split
  · exact hgrow
  · exact hgrow

/-- Among patient publishers no count of failed attempts goes down. -/
theorem retriesGrow_of_patient (hpatient : Patient pubs) : RetriesGrow pubs b := by
  intro s s' hreach hstep r hr r' hr' hid
  have hcustody := custody_of_reachable hpatient hreach
  have hdistinct := (filed_of_reachable hreach).numbered.ordered.distinct
  cases effect_of_step hstep with
  | appended row ha =>
    rw [ha.table] at hr'
    rcases List.mem_append.mp hr' with hr' | hr'
    · rw [hdistinct r' hr' r hr hid]
    · rw [List.mem_singleton.mp hr'] at hid
      exact absurd hid.symm (Int.ne_of_lt (ha.above r hr))
  | claimed cfg hcfg olderThan t hc =>
    exact retryCount_of_claimed (filed_of_reachable hreach) hc hr hr' hid
  | delivered t row partition hd =>
    rw [hd.table] at hr'
    rw [hdistinct r' hr' r hr hid]
  | recorded t row result hrec =>
    obtain ⟨ht, hrow⟩ := hrec.mem
    rw [hrec.table, Outbox.changeClaimed_snd] at hr'
    obtain ⟨p, hp, rfl⟩ := List.mem_map.mp hr'
    by_cases hhit : Outbox.IsHit row.id p
    · rw [if_pos hhit] at hid ⊢
      -- the row is the one that the tick claimed, so its count is the one the tick knows
      have hprow := hdistinct p hp row (hcustody.held t ht row hrow) hhit.1
      rw [OutboxRow.id_eq_of_asAppended (asAppended_afterOutcome _ _ _ _ _)] at hid
      rw [← hdistinct p hp r hr hid, hprow]
      exact retryCount_afterOutcome t.cfg s.now row result
    · rw [if_neg hhit] at hid ⊢
      rw [hdistinct p hp r hr hid]
  | quiet hq =>
    rw [hdistinct r' (hq.table.subset hr') r hr hid]

/-! ## Where a send may take longer -/

/-- The longest limit considered, a hundred years. -/
def century : Span := .ofSeconds (36525 * 86400)

/-- Settings of a publisher that can work: its limits are positive and reasonable, a batch is not
empty, and a row is tried more than once. -/
structure Workable (cfg : PublisherConfig) : Prop where
  /-- There is time to send. -/
  timeout_pos : 0 < cfg.sendTimeout
  /-- It is not too long. -/
  timeout_le : cfg.sendTimeout ≤ century
  /-- A claim lasts. -/
  stale_pos : 0 < cfg.staleAfter.rounded
  /-- It does not last too long. -/
  stale_le : cfg.staleAfter.rounded ≤ century
  /-- Something is claimed. -/
  batch_ne : cfg.batch ≠ 0
  /-- The database takes the size of a batch. -/
  batch_fits : Scalar.fitsWord cfg.batch = true
  /-- A row is tried more than once. -/
  retries : 1 < cfg.maxRetries
  /-- The database takes the number of tries. -/
  retries_fit : Scalar.fitsWord cfg.maxRetries = true

/-- Settings that can work give a limit of stale claims at every time of the century. -/
theorem before_of_workable {cfg : PublisherConfig} (h : Workable cfg) (now : Instant)
    (hge : Instant.origin ≤ now) (hle : now ≤ .origin + century) :
    now.before cfg.staleAfter = .ok (now - cfg.staleAfter.rounded) := by
  have hfirst : Instant.ofDate ⟨1, 1, 1⟩ ≤ Instant.origin - century := by decide +kernel
  have hlast : Instant.origin + century < Instant.ofDate ⟨10000, 1, 1⟩ := by decide +kernel
  have hpos := h.stale_pos
  have hcentury := h.stale_le
  have hdated : Instant.isDated (now - cfg.staleAfter.rounded) = true := by
    unfold Instant.isDated
    simp only [Bool.and_eq_true, decide_eq_true_eq]
    unfold Instant Span at *
    omega
  unfold Instant.before Instant.dated
  rw [if_pos hdated]

/-- A failure is recorded in the claimed row of its identifier, when nothing goes wrong. -/
theorem table_reconcile_error (cfg : PublisherConfig) {row : OutboxRow} (cause : Failure)
    (hid : Scalar.fitsWord row.id = true) (hretry : Scalar.fitsWord (row.retryCount + 1) = true) :
    (s.transact .none (reconcile cfg row (.error cause))).2.table =
      (s.table.changeClaimed row.id (afterOutcome cfg s.now row (.error cause))).2 := by
  obtain ⟨published, hok⟩ := ok_reconcile cfg { s.desk with script := .none } rfl
    (.error cause) hid hretry
  rcases run_reconcile (s := { s.desk with script := .none }) fairScript_none cfg row
    (.error cause) with ⟨e, hresult, -, -⟩ | ⟨published', outbox, -, hstored, houtbox, -⟩
  · rw [hresult] at hok
    cases hok
  · exact (congrArg Database.outbox hstored).trans houtbox

/-- A claim takes the only row there is, if it waits. -/
theorem claim_singleton {row : OutboxRow} (hpending : row.status = .pending) {batch : Int}
    (hbatch : batch ≠ 0) (now : Instant) :
    Outbox.claim [row] batch now = ([Outbox.claimed now row], [Outbox.claimed now row]) := by
  have heligible : Outbox.isEligible [row] row = true := by
    simp [Outbox.isEligible, Outbox.holdsBack, hpending]
  have hchosen : Outbox.takeUpTo batch ((([row] : Outbox).filter
      (Outbox.isEligible [row])).mergeSort Outbox.claimsBefore) = [row] := by
    rw [List.filter_singleton, heligible, cond_true, List.mergeSort_singleton]
    unfold Outbox.takeUpTo
    by_cases hneg : batch < 0
    · rw [if_pos hneg]
    · rw [if_neg hneg, List.take_of_length_le]
      rw [List.length_singleton]
      omega
  unfold Outbox.claim
  rw [hchosen]
  simp

/-- The only row there is is claimed, when nothing goes wrong. -/
theorem exists_claim_only_row (hreach : Reachable pubs b s) {cfg : PublisherConfig}
    (hcfg : cfg ∈ pubs) (h : Workable cfg) {olderThan : Instant}
    (hold : s.now.before cfg.staleAfter = .ok olderThan) {r row : OutboxRow}
    (htable : s.table = [r]) (hrow : row = Outbox.afterRelease olderThan cfg.maxRetries r)
    (hpending : row.status = .pending) (sends : List (Outcome String)) (hsends : FairSends sends) :
    ∃ s', Reachable pubs b s' ∧ s'.now = s.now ∧ s'.table = [Outbox.claimed s.now row] ∧
      s'.ticks = s.ticks ++ [{
        cfg, number := s.claims, claimedAt := s.now, serial := s.serial
        flights := (launchAll cfg b s.now (fun span => s.now + span)
          [Outbox.claimed s.now row] sends).1 }] ∧
      s'.serial = s.serial ∧ s'.claims = s.claims + 1 ∧
      s'.claimOf? (s.serial row.id) = some s.claims := by
  have hreleased : (s.table.releaseStale olderThan cfg.maxRetries).2 = [row] := by
    rw [htable, hrow]
    rfl
  have hclaim := claim_singleton hpending h.batch_ne s.now
  refine ⟨_, .step hreach (.claim s hcfg fairScript_none hsends), ?_⟩
  obtain ⟨rows, hok⟩ := ok_claimBatch h.batch_fits h.retries_fit { s.desk with script := .none }
    rfl hold
  unfold Relay.claim Relay.transact
  rcases run_claimBatch (s := { s.desk with script := .none }) fairScript_none cfg with
    ⟨e, hresult, -, -⟩ | ⟨rows', outbox, hresult, hstored, olderThan', hold', hbatch, -⟩
  · rw [hresult] at hok
    cases hok
  · have holder : olderThan' = olderThan := Except.ok.inj (hold'.symm.trans hold)
    have hbatch' : (rows', outbox) =
        ([Outbox.claimed s.now row], [Outbox.claimed s.now row]) := by
      rw [← hclaim, ← hreleased, ← holder]
      exact hbatch
    obtain ⟨hrows, houtbox⟩ := Prod.mk.inj hbatch'
    simp only [hresult, hrows]
    refine ⟨rfl, (congrArg Database.outbox hstored).trans houtbox, rfl, trivial, trivial, ?_⟩
    exact List.lookup_cons_self

/-- A send that takes until its time limit is one flight, and fails. -/
theorem launchAll_hanging {cfg : PublisherConfig} (h : Workable cfg) (hb : b.partitions ≠ 0)
    (now : Instant) (row : OutboxRow) :
    (launchAll cfg b now (fun span => now + span) [row] [⟨cfg.sendTimeout, .through⟩]).1 =
      [.airborne row (now + cfg.sendTimeout) (.fail .timedOut)] := by
  have hpos : ¬ cfg.sendTimeout ≤ 0 := Int.not_le.mpr h.timeout_pos
  have hp : partitionFor row.routingKey b.partitions =
      .ok (Int.fmod (Checksum.ofText row.routingKey).toNat b.partitions) := if_neg hb
  unfold launchAll launch
  simp only [if_neg hpos, hp]
  unfold Outcome.next
  simp only [Int.le_refl, if_true]
  rfl

/-- The only tick waits until its only send fails. -/
theorem exists_fail_only_send (hreach : Reachable pubs b s) {t : Tick} {row : OutboxRow}
    {due : Instant} {cause : Failure} (ht : s.ticks = [t])
    (hf : t.flights = [.airborne row due (.fail cause)]) (hle : s.now ≤ due) :
    ∃ s', Reachable pubs b s' ∧ s'.now = due ∧
      s'.ticks = [{ t with flights := [.landed row (.error cause)] }] ∧ s'.table = s.table ∧
      s'.serial = s.serial ∧ s'.claims = s.claims := by
  have hpass : Reachable pubs b (s.waitUntil due) := by
    refine .step hreach (.pass s hle fun u hu => ?_)
    rw [ht, List.mem_singleton] at hu
    rw [hu]
    refine ⟨due, ?_, Int.le_refl _⟩
    rw [hf]
    rfl
  have hdue : due.isDue (s.waitUntil due).now := by
    have hpos : 0 < Clock.resolution := by decide
    change decide (due < due + Clock.resolution) = true
    rw [decide_eq_true_eq]
    unfold Instant Span at *
    omega
  have hticks : (s.waitUntil due).ticks = [] ++ t :: [] := ht
  have hflights : t.flights = [] ++ .airborne row due (.fail cause) :: [] := hf
  exact ⟨_, .step hpass (.land (s.waitUntil due) hticks hflights hdue), rfl, rfl, rfl, rfl, rfl⟩

/-- A row is appended and claimed, and its send fails at the time limit. -/
theorem exists_failed_send {p : PublisherConfig} (hp : p ∈ pubs) (h : Workable p)
    (hb : b.partitions ≠ 0) :
    ∃ s r serial, Reachable pubs b s ∧ r.id = 1 ∧ r.retryCount = 0 ∧
      s.now = .origin + p.sendTimeout ∧ s.table = [Outbox.claimed .origin r] ∧ s.claims = 1 ∧
      s.ticks = [⟨p, 0, .origin, serial,
        [.landed (Outbox.claimed .origin r) (.error .timedOut)]⟩] := by
  have hlimit := h.timeout_le
  have hpos := h.timeout_pos
  obtain ⟨s₁, hs₁⟩ : ∃ s₁, s₁ = (start emptyDesk).append "" "" "" none .origin := ⟨_, rfl⟩
  have hreach₁ : Reachable pubs b s₁ := by
    rw [hs₁]
    exact .step (.start _) (.append _ _ _ _ _ _)
  obtain ⟨r, hr, hid, hpending, hretry, hnow₁, hticks₁, hclaims₁⟩ : ∃ r, s₁.table = [r] ∧
      r.id = 1 ∧ r.status = .pending ∧ r.retryCount = 0 ∧ s₁.now = .origin ∧ s₁.ticks = [] ∧
      s₁.claims = 0 := by
    rw [hs₁]
    exact ⟨_, rfl, rfl, rfl, rfl, rfl, rfl, rfl⟩
  have hold₁ := before_of_workable h s₁.now (Int.le_of_eq hnow₁.symm)
    (by rw [hnow₁]; unfold Instant Span at *; omega)
  have hfresh : Outbox.afterRelease (s₁.now - p.staleAfter.rounded) p.maxRetries r = r := by
    unfold Outbox.afterRelease Outbox.isStale
    rw [hpending]
    rfl
  obtain ⟨s₂, hreach₂, hnow₂, htable₂, hticks₂, -, hclaims₂, -⟩ :=
    exists_claim_only_row hreach₁ hp h hold₁ hr hfresh.symm hpending
      [⟨p.sendTimeout, .through⟩] (by simp [FairSends, Turn.IsHonest])
  rw [hnow₁] at hnow₂ htable₂ hticks₂
  rw [hclaims₁] at hclaims₂ hticks₂
  rw [launchAll_hanging h hb, hticks₁] at hticks₂
  obtain ⟨s₃, hreach₃, hnow₃, hticks₃, htable₃, -, hclaims₃⟩ :=
    exists_fail_only_send hreach₂ hticks₂ rfl (by
      rw [hnow₂]
      unfold Instant Span at *
      omega)
  exact ⟨s₃, r, s₁.serial, hreach₃, hid, hretry, hnow₃, htable₃.trans htable₂,
    hclaims₃.trans hclaims₂, hticks₃⟩

/-- A row that was claimed once waits again after its claim was taken back. -/
theorem status_afterRelease {q : PublisherConfig} (h : Workable q) {olderThan since : Instant}
    {r : OutboxRow} (hlt : since < olderThan) (hretry : r.retryCount = 0) :
    (Outbox.afterRelease olderThan q.maxRetries (Outbox.claimed since r)).status = .pending := by
  have hstale : Outbox.isStale olderThan (Outbox.claimed since r) = true :=
    Outbox.isStale_iff.mpr ⟨rfl, since, rfl, hlt⟩
  have hretries := h.retries
  unfold Outbox.afterRelease
  rw [if_pos hstale]
  unfold Outbox.released
  dsimp only
  rw [if_neg]
  change ¬ q.maxRetries ≤ r.retryCount + 1
  omega

/-- The outcome of a tick whose claim was taken over: it is recorded in the row all the same, under
the claim of another tick. -/
theorem exists_late_outcome {p q : PublisherConfig} (hp : p ∈ pubs) (hq : q ∈ pubs)
    (hpw : Workable p) (hqw : Workable q) (hb : b.partitions ≠ 0)
    (hlate : q.staleAfter.rounded < p.sendTimeout) :
    ∃ s, Reachable pubs b s ∧ ∃ t ∈ s.ticks, ∃ row r,
      t.flights = [.landed row (.error .timedOut)] ∧ s.table = [r] ∧
      s.claimOf? (s.serial r.id) ≠ some t.number ∧
      r ∉ (s.transact .none (reconcile t.cfg row (.error .timedOut))).2.table := by
  have hlimit := hpw.timeout_le
  have hpos := hpw.timeout_pos
  obtain ⟨s₁, r, serial, hreach₁, hid, hretry, hnow₁, htable₁, hclaims₁, hticks₁⟩ :=
    exists_failed_send (b := b) hp hpw hb
  -- `q` takes the claim back and claims the row anew
  have hold₁ := before_of_workable hqw s₁.now
    (by rw [hnow₁]; unfold Instant Span at *; omega)
    (by rw [hnow₁]; unfold Instant Span at *; omega)
  have hlt : Instant.origin < s₁.now - q.staleAfter.rounded := by
    rw [hnow₁]
    unfold Instant Span at *
    omega
  obtain ⟨s₂, hreach₂, hnow₂, htable₂, hticks₂, hserial₂, -, hclaim₂⟩ :=
    exists_claim_only_row hreach₁ hq hqw hold₁ htable₁ rfl (status_afterRelease hqw hlt hretry) []
      (by simp [FairSends])
  refine ⟨s₂, hreach₂, ⟨p, 0, .origin, serial,
    [.landed (Outbox.claimed .origin r) (.error .timedOut)]⟩, ?_, Outbox.claimed .origin r, _, rfl,
    htable₂, ?_, ?_⟩
  · rw [hticks₂, hticks₁]
    exact List.mem_append_left _ (List.mem_singleton_self _)
  · -- the row came under the second claim, the tick made the first one
    rw [hserial₂]
    refine fun hsame => ?_
    have hnumber := hclaim₂.symm.trans hsame
    rw [hclaims₁] at hnumber
    simp at hnumber
  · have hid' : (Outbox.claimed .origin r).id = 1 := hid
    have hretry' : (Outbox.claimed .origin r).retryCount = 0 := hretry
    rw [table_reconcile_error p .timedOut (by rw [hid']; decide) (by rw [hretry']; decide),
      htable₂, Outbox.changeClaimed_snd, List.map_singleton, List.mem_singleton, if_pos]
    · intro hsame
      refine status_afterOutcome _ _ _ _ _ ((congrArg OutboxRow.status hsame).symm.trans ?_)
      rfl
    · refine ⟨?_, rfl⟩
      exact OutboxRow.id_eq_of_asAppended (Outbox.asAppended_afterRelease _ _ _)

/-- The exact condition.  Among publishers that can work, outcomes are recorded under the tick's own
claim only, and counts of failed attempts only grow, if and only if no send of any of them may take
longer than a claim may last for any of them. -/
theorem own_claims_iff (hpubs : ∀ cfg ∈ pubs, Workable cfg) (hb : b.partitions ≠ 0) :
    (OwnClaimsOnly pubs b ∧ RetriesGrow pubs b) ↔
      ∀ p ∈ pubs, ∀ q ∈ pubs, p.sendTimeout ≤ q.staleAfter.rounded := by
  constructor
  · rintro ⟨hown, -⟩ p hp q hq
    by_contra hlate
    obtain ⟨s, hreach, t, ht, row, r, hf, htable, hclaim, hchanged⟩ :=
      exists_late_outcome hp hq (hpubs p hp) (hpubs q hq) hb (Int.not_le.mp hlate)
    refine hclaim (hown s hreach t ht row (.error .timedOut) [] ?_ hf .none fairScript_none r ?_
      hchanged).2.2
    · rw [hf]
      rfl
    · rw [htable]
      exact List.mem_singleton_self r
  · intro hlimits
    have hpatient : Patient pubs := by
      intro p hp q hq
      have hpos := (hpubs q hq).stale_pos
      have hle := hlimits p hp q hq
      unfold Span at *
      omega
    exact ⟨ownClaimsOnly_of_patient hpatient, retriesGrow_of_patient hpatient⟩

/-- A publisher with these two limits, in seconds. -/
def limitedPublisher (stale timeout : Int) : PublisherConfig where
  batch := 10
  maxRetries := 10
  staleAfter := .ofSeconds stale
  sendTimeout := .ofSeconds timeout
  retention := .ofSeconds 86400

/-- With equal limits a tick keeps to its own claims, with a claim that ends earlier it does not. -/
theorem own_claims_iff_limits :
    (OwnClaimsOnly {limitedPublisher 30 30} ⟨3, none⟩ ∧
      RetriesGrow {limitedPublisher 30 30} ⟨3, none⟩) ∧
    ¬ (OwnClaimsOnly {limitedPublisher 30 100} ⟨3, none⟩ ∧
      RetriesGrow {limitedPublisher 30 100} ⟨3, none⟩) := by
  constructor
  · refine (own_claims_iff ?_ (by decide)).mpr ?_
    · rintro cfg rfl
      constructor <;> decide +kernel
    · rintro p rfl q rfl
      decide +kernel
  · refine mt (own_claims_iff ?_ (by decide)).mp fun hlimits => ?_
    · rintro cfg rfl
      constructor <;> decide +kernel
    · exact absurd (hlimits _ rfl _ rfl) (by decide +kernel)

/-- A tick waits for a send that hangs; meanwhile a second one takes the row over and dies, and a
third one takes it over again.  Then the send of the first one fails. -/
def overtakenRun : List Move :=
  let cfg := limitedPublisher 30 100
  let hanging : List (Outcome String) := [⟨.ofSeconds 100, .through⟩]
  [.append "users" "first" (some "k"), .claim cfg hanging, .pass (.ofSeconds 31),
    .claim cfg hanging, .leave 1, .pass (.ofSeconds 31), .claim cfg hanging,
    .pass (.ofSeconds 38), .land 0 0]

/-- What is to be seen of the claim of a row. -/
structure Glimpse where
  /-- Which row it is. -/
  id : Int
  /-- Where it stands. -/
  status : OutboxStatus
  /-- When it was claimed last. -/
  since : Option Instant
  /-- How many attempts have failed. -/
  failed : Int
deriving DecidableEq

/-- What is to be seen of the claims of rows. -/
def glimpses (s : Relay) : List Glimpse :=
  s.table.map fun r => ⟨r.id, r.status, r.processedAt, r.retryCount⟩

/-- When the third tick began. -/
def thirdClaim : Instant := Instant.origin + Span.ofSeconds 62

/-- The first tick ends the claim of the third one, and the failed attempts of the row are fewer
than before. -/
theorem late_outcome_overwrites :
    (∃ s s', Reachable {limitedPublisher 30 100} ⟨3, none⟩ s ∧
      play ⟨3, none⟩ s (.record 0) = some s' ∧
      s.ticks.map (·.claimedAt) = [Instant.origin, thirdClaim] ∧
      glimpses s = [⟨1, .processing, some thirdClaim, 2⟩] ∧
      glimpses s' = [⟨1, .pending, some thirdClaim, 1⟩]) ∧
    ¬ RetriesGrow {limitedPublisher 30 100} ⟨3, none⟩ := by
  have hplays : ((plays ⟨3, none⟩ (start emptyDesk) overtakenRun).bind fun s =>
      (play ⟨3, none⟩ s (.record 0)).map fun s' =>
        (s.ticks.map (·.claimedAt), glimpses s, glimpses s')) =
      some ([Instant.origin, thirdClaim], [⟨1, .processing, some thirdClaim, 2⟩],
        [⟨1, .pending, some thirdClaim, 1⟩]) := by
    decide +kernel
  obtain ⟨s, hs, hmap⟩ := Option.bind_eq_some_iff.mp hplays
  obtain ⟨s', hs', hseen⟩ := Option.map_eq_some_iff.mp hmap
  simp only [Prod.mk.injEq] at hseen
  obtain ⟨hticks, hbefore, hafter⟩ := hseen
  have hreach : Reachable {limitedPublisher 30 100} ⟨3, none⟩ s := by
    refine reachable_of_plays ?_ (.start emptyDesk) hs
    simp [overtakenRun, Move.Uses, FairSends, Turn.IsHonest]
  refine ⟨⟨s, s', hreach, hs', hticks, hbefore, hafter⟩, fun hgrow => ?_⟩
  have hstep : Step {limitedPublisher 30 100} ⟨3, none⟩ s s' :=
    step_of_play (m := .record 0) trivial hs'
  unfold glimpses at hbefore hafter
  obtain ⟨r, rest, htable, hr, -⟩ := List.map_eq_cons_iff.mp hbefore
  obtain ⟨r', rest', htable', hr', -⟩ := List.map_eq_cons_iff.mp hafter
  have hmem : r ∈ s.table := by
    rw [htable]
    exact List.mem_cons_self
  have hmem' : r' ∈ s'.table := by
    rw [htable']
    exact List.mem_cons_self
  simp only [Glimpse.mk.injEq] at hr hr'
  have hle := hgrow s s' hreach hstep r hmem r' hmem' (hr'.1.trans hr.1.symm)
  rw [hr.2.2.2, hr'.2.2.2] at hle
  exact absurd hle (by decide)

end Publisher

end EventRelay
