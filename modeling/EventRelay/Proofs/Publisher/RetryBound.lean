import EventRelay.Proofs.Publisher.Custody
import EventRelay.Proofs.Publisher.Play
import Mathlib.Data.Set.Insert

/-!
# How often a row is tried

Two writers advance the count of failed attempts of a row: a tick whose send failed, which writes
what it knew at its claim plus one, and the watchdog, which adds one to what is stored.  A tick that
dies leaves its attempt uncounted until the watchdog takes the claim back.

Where no send of any publisher may take longer than a claim may last for any, the two do not get
into each other's way: every claim of a row is counted once, either as a failed attempt or as the
one that the row is under, so the limit of attempts bounds the claims.

* `InCount`: a row agrees with the number of its claims.
* `counted_of_reachable`: all rows do, in every run of patient publishers with one limit.
* `retry_bound`: the main statement; `claims_exceed_limit`: a run of two publishers with limits of
  time that do not fit each other, in which a row is claimed once too often.
-/

namespace EventRelay

namespace Relay

/-- How often the row of this number was claimed. -/
def claimsOf (s : Relay) (i : Nat) : Nat := s.claimLog.countP fun c => c.1 = i

/-- How often a message of the row of this number was taken in. -/
def deliveriesOf (s : Relay) (i : Nat) : Nat := s.journal.countP fun e => e.origin = some i

variable {s s' : Relay}

/-- How often a row was claimed is told by the log of claims. -/
theorem claimsOf_congr (h : s'.claimLog = s.claimLog) : s'.claimsOf = s.claimsOf := by
  unfold claimsOf
  rw [h]

/-- How often a row was sent is told by the journal. -/
theorem deliveriesOf_congr (h : s'.journal = s.journal) : s'.deliveriesOf = s.deliveriesOf := by
  unfold deliveriesOf
  rw [h]

/-- Entries of other rows do not count. -/
theorem deliveriesOf_append {others : List Posting} {i : Nat}
    (h : s'.journal = s.journal ++ others) (hothers : ∀ e ∈ others, e.origin ≠ some i) :
    s'.deliveriesOf i = s.deliveriesOf i := by
  have hnone : (others.countP fun e => e.origin = some i) = 0 :=
    List.countP_eq_zero.mpr fun e he hi => hothers e he (of_decide_eq_true hi)
  unfold deliveriesOf
  rw [h, List.countP_append, hnone, Nat.add_zero]

end Relay

namespace Publisher

open Relay

variable {pubs : Set PublisherConfig} {b : Broker} {s s' : Relay} {m : Int}

/-! ## A row and its claims -/

/-- How many attempts a row gets: one at least. -/
def attemptLimit (maxRetries : Int) : Int := max 1 maxRetries

/-- The claims of a row in this status that do not count as failed attempts. -/
def openClaims : OutboxStatus → Int
  | .pending => 0
  | .processing => 1
  | .published => 1
  | .failed => 0

/-- A row agrees with the number of its claims. -/
structure InCount (m : Int) (claims : Nat) (r : OutboxRow) : Prop where
  /-- Each claim has failed, or the row is under it, or was published by it. -/
  counted : (claims : Int) = r.retryCount + openClaims r.status
  /-- No count is negative. -/
  nonneg : 0 ≤ r.retryCount
  /-- A row that is not given up has attempts left. -/
  below : r.status ≠ .failed → r.retryCount < attemptLimit m
  /-- A row that is given up has none. -/
  reached : r.status = .failed → r.retryCount = attemptLimit m

section rows

variable {n : Nat} {r : OutboxRow}

/-- A new row has not been claimed. -/
theorem inCount_fresh (hfresh : r.asAppended = r) : InCount m 0 r := by
  have hstatus : r.status = .pending := congrArg OutboxRow.status hfresh.symm
  have hcount : r.retryCount = 0 := congrArg OutboxRow.retryCount hfresh.symm
  constructor
  · rw [hstatus, hcount]
    rfl
  · rw [hcount]
  · intro _
    rw [hcount]
    unfold attemptLimit
    omega
  · intro hfailed
    rw [hstatus] at hfailed
    cases hfailed

/-- One claim of a row at most is not counted as a failed attempt. -/
theorem openClaims_le_one (status : OutboxStatus) : openClaims status ≤ 1 := by
  cases status <;> decide

/-- A row that agrees with its claims was not claimed too often. -/
theorem InCount.le (h : InCount m n r) : (n : Int) ≤ attemptLimit m := by
  have hcounted := h.counted
  by_cases hfailed : r.status = .failed
  · have hreached := h.reached hfailed
    rw [hfailed] at hcounted
    simp only [openClaims] at hcounted
    omega
  · have hleft := h.below hfailed
    have hone := openClaims_le_one r.status
    omega

/-- A claim that comes to nothing counts as a failed attempt, and the row is given up if it was the
last one. -/
theorem InCount.fail (h : InCount m n r) (hstatus : r.status = .processing) {q : OutboxRow}
    (hcount : q.retryCount = r.retryCount + 1)
    (hgiven : q.status = if m ≤ r.retryCount + 1 then .failed else .pending) : InCount m n q := by
  have hcounted := h.counted
  have hnonneg := h.nonneg
  have hbelow := h.below
  rw [hstatus] at hcounted hbelow
  have hlt := hbelow nofun
  simp only [openClaims] at hcounted
  by_cases hlast : m ≤ r.retryCount + 1
  · rw [if_pos hlast] at hgiven
    have hreached : q.retryCount = attemptLimit m := by
      unfold attemptLimit at hlt ⊢
      omega
    refine ⟨?_, by omega, fun hne => absurd hgiven hne, fun _ => hreached⟩
    rw [hgiven, hcount]
    simp only [openClaims]
    omega
  · rw [if_neg hlast] at hgiven
    have hleft : q.retryCount < attemptLimit m := by
      unfold attemptLimit at hlt ⊢
      omega
    refine ⟨?_, by omega, fun _ => hleft, fun hfailed => ?_⟩
    · rw [hgiven, hcount]
      simp only [openClaims]
      omega
    · rw [hgiven] at hfailed
      cases hfailed

/-- The watchdog counts a claim that it takes back. -/
theorem InCount.release (h : InCount m n r) (olderThan : Instant) :
    InCount m n (Outbox.afterRelease olderThan m r) := by
  unfold Outbox.afterRelease
  by_cases hstale : Outbox.isStale olderThan r = true
  · rw [if_pos hstale]
    refine h.fail (Outbox.isStale_iff.mp hstale).1 ?_ ?_
    · exact Outbox.retryCount_released m r
    · unfold Outbox.released
      dsimp only
      split <;> rfl
  · rw [if_neg hstale]
    exact h

/-- A claim is one claim more. -/
theorem InCount.claim (h : InCount m n r) (hstatus : r.status = .pending) (now : Instant) :
    InCount m (n + 1) (Outbox.claimed now r) := by
  have hcounted := h.counted
  have hbelow := h.below
  rw [hstatus] at hcounted hbelow
  simp only [openClaims] at hcounted
  refine ⟨?_, h.nonneg, fun _ => hbelow nofun, nofun⟩
  show ((n + 1 : Nat) : Int) = r.retryCount + 1
  omega

/-- An outcome ends the claim that the row is under. -/
theorem InCount.outcome (h : InCount m n r) (hstatus : r.status = .processing)
    {cfg : PublisherConfig} (hcfg : cfg.maxRetries = m) (now : Instant)
    (result : Except Failure Receipt) : InCount m n (afterOutcome cfg now r result r) := by
  cases result with
  | ok receipt =>
    have hcounted := h.counted
    have hbelow := h.below
    rw [hstatus] at hcounted hbelow
    exact ⟨hcounted, h.nonneg, fun _ => hbelow nofun, nofun⟩
  | error cause =>
    refine h.fail hstatus rfl ?_
    rw [← hcfg]
    rfl

end rows

/-! ## Claims and their log -/

/-- A row that does not come under a claim keeps the number of its claims, a row that does gets one
more. -/
theorem claimsOf_claimed {cfg : PublisherConfig} {olderThan : Instant} {t : Tick}
    (hc : Claimed b cfg olderThan s s' t) (i : Nat) :
    s'.claimsOf i = s.claimsOf i + t.rows.countP fun row => s.serial row.id = i := by
  unfold claimsOf
  rw [hc.claimLog, List.countP_append, List.countP_map, Nat.add_comm]
  rfl

/-- The batch has a row of the outbox once, or not at all. -/
theorem countP_chosen (hfiled : Filed pubs b s) {cfg : PublisherConfig} {olderThan : Instant}
    {t : Tick} (hc : Claimed b cfg olderThan s s' t) {r : OutboxRow} (hr : r ∈ s.table) :
    (t.rows.countP fun row => s.serial row.id = s.serial r.id) =
      if Outbox.afterRelease olderThan cfg.maxRetries r ∈
        Outbox.chosen (s.table.releaseStale olderThan cfg.maxRetries).2 cfg.batch
      then 1 else 0 := by
  have hordered := (Outbox.releaseStale_descends s.table olderThan cfg.maxRetries).ordered
    hfiled.numbered.ordered
  have hrid : (Outbox.afterRelease olderThan cfg.maxRetries r).id = r.id :=
    OutboxRow.id_eq_of_asAppended (Outbox.asAppended_afterRelease olderThan cfg.maxRetries r)
  have hreleased : Outbox.afterRelease olderThan cfg.maxRetries r ∈
      (s.table.releaseStale olderThan cfg.maxRetries).2 := by
    rw [Outbox.releaseStale_snd]
    exact List.mem_map_of_mem hr
  -- rows of one number have one identifier
  have hsame : ∀ row ∈ t.rows, s.serial row.id = s.serial r.id ↔ row.id = r.id := by
    intro row hrow
    refine ⟨fun hserial => ?_, fun hid => by rw [hid]⟩
    obtain ⟨p, hp, hrp⟩ := exists_row_of_claimed hc hrow
    rw [OutboxRow.id_eq_of_asAppended hrp] at hserial ⊢
    exact hfiled.numbered.id_eq hp hr hserial
  have hcount : (t.rows.countP fun row => s.serial row.id = s.serial r.id) =
      ((Outbox.chosen (s.table.releaseStale olderThan cfg.maxRetries).2 cfg.batch).map
        (·.id)).count r.id := by
    calc (t.rows.countP fun row => s.serial row.id = s.serial r.id)
        = t.rows.countP fun row => row.id = r.id :=
          List.countP_congr fun row hrow => by simpa using hsame row hrow
      _ = (t.rows.map (·.id)).count r.id := by
          rw [List.count, List.countP_map]
          exact List.countP_congr fun row _ => by simp
      _ = _ := by
          rw [hc.rows, Outbox.claim_fst, List.map_map]
          rfl
  rw [hcount]
  by_cases hchosen : Outbox.afterRelease olderThan cfg.maxRetries r ∈
      Outbox.chosen (s.table.releaseStale olderThan cfg.maxRetries).2 cfg.batch
  · rw [if_pos hchosen]
    refine List.count_eq_one_of_mem (Outbox.nodup_chosen_ids hordered.nodup) ?_
    rw [← hrid]
    exact List.mem_map_of_mem hchosen
  · rw [if_neg hchosen]
    refine List.count_eq_zero_of_not_mem fun hmem => hchosen ?_
    obtain ⟨q, hq, hid⟩ := List.mem_map.mp hmem
    rw [← hordered.distinct q (Outbox.mem_of_mem_chosen hq).1 _ hreleased (hid.trans hrid.symm)]
    exact hq

/-! ## The invariant -/

/-- All rows agree with the numbers of their claims, and no row was claimed too often. -/
structure Counted (m : Int) (s : Relay) : Prop where
  /-- Claims are of rows that were appended. -/
  known : ∀ c ∈ s.claimLog, c.1 < s.births.length
  /-- The rows that are there agree with their claims. -/
  rows : ∀ r ∈ s.table, InCount m (s.claimsOf (s.serial r.id)) r
  /-- Neither was any row claimed too often that is gone. -/
  bounded : ∀ i, (s.claimsOf i : Int) ≤ attemptLimit m

/-- In the beginning nothing was claimed. -/
theorem counted_start (desk : Session) : Counted m (start desk) where
  known _ hc := absurd hc List.not_mem_nil
  rows _ hr := absurd hr List.not_mem_nil
  bounded _ := by
    show (0 : Int) ≤ attemptLimit m
    unfold attemptLimit
    omega

/-- Where no row comes under a claim, rows need to agree with the claims from before. -/
theorem Counted.advance (h : Counted m s) (hbirths : s'.births = s.births)
    (hserial : s'.serial = s.serial) (hlog : s'.claimLog = s.claimLog)
    (hrows : ∀ r' ∈ s'.table, InCount m (s.claimsOf (s.serial r'.id)) r') : Counted m s' := by
  have hclaims := claimsOf_congr hlog
  constructor
  · rw [hlog, hbirths]
    exact h.known
  · rw [hclaims, hserial]
    exact hrows
  · rw [hclaims]
    exact h.bounded

/-- A row that is appended was never claimed. -/
theorem Counted.append (h : Counted m s) {row : OutboxRow} (ha : Appended s s' row) :
    Counted m s' := by
  have hclaims := claimsOf_congr ha.claimLog
  constructor
  · rw [ha.claimLog, ha.births, List.length_append]
    intro c hc
    exact Nat.lt_add_right _ (h.known c hc)
  · intro r hr
    rw [hclaims]
    rcases ha.mem_table hr with hr | rfl
    · rw [ha.serial_of_mem hr]
      exact h.rows r hr
    · rw [ha.serial_self]
      have hnone : s.claimsOf s.births.length = 0 := by
        refine List.countP_eq_zero.mpr fun c hc hlast => ?_
        exact absurd (of_decide_eq_true hlast) (Nat.ne_of_lt (h.known c hc))
      rw [hnone]
      exact inCount_fresh ha.fresh
  · rw [hclaims]
    exact h.bounded

/-- A claim of rows that have attempts left keeps the count. -/
theorem Counted.claim (h : Counted m s) (hfiled : Filed pubs b s) {cfg : PublisherConfig}
    (hretries : cfg.maxRetries = m) {olderThan : Instant} {t : Tick}
    (hc : Claimed b cfg olderThan s s' t) : Counted m s' := by
  have hrow : ∀ r ∈ s.table, InCount m (s'.claimsOf (s.serial r.id))
      (Outbox.afterClaim s.table olderThan cfg.maxRetries cfg.batch s.now r) := by
    intro r hr
    have hreleased := (h.rows r hr).release olderThan
    rw [claimsOf_claimed hc, countP_chosen hfiled hc hr]
    unfold Outbox.afterClaim
    dsimp only
    rw [← hretries] at hreleased ⊢
    by_cases hchosen : Outbox.afterRelease olderThan cfg.maxRetries r ∈
        Outbox.chosen (s.table.releaseStale olderThan cfg.maxRetries).2 cfg.batch
    · rw [if_pos hchosen, if_pos hchosen]
      have heligible := (Outbox.mem_of_mem_chosen hchosen).2
      exact hreleased.claim (Outbox.status_of_isEligible heligible) s.now
    · rw [if_neg hchosen, if_neg hchosen]
      exact hreleased
  constructor
  · intro c hc'
    rw [hc.claimLog] at hc'
    rw [hc.births]
    rcases List.mem_append.mp hc' with hc' | hc'
    · obtain ⟨row, hmem, rfl⟩ := List.mem_map.mp hc'
      obtain ⟨p, hp, hrp⟩ := exists_row_of_claimed hc hmem
      obtain ⟨hlt, -⟩ := List.getElem?_eq_some_iff.mp (hfiled.numbered.born p hp)
      rw [OutboxRow.id_eq_of_asAppended hrp]
      exact hlt
    · exact h.known c hc'
  · intro r' hr'
    rw [hc.table, Outbox.claim_releaseStale_snd hfiled.numbered.ordered] at hr'
    obtain ⟨r, hr, rfl⟩ := List.mem_map.mp hr'
    rw [hc.serial, OutboxRow.id_eq_of_asAppended (Outbox.asAppended_afterClaim _ _ _ _ r)]
    exact hrow r hr
  · intro i
    by_cases hi : ∃ row ∈ t.rows, s.serial row.id = i
    · obtain ⟨row, hmem, rfl⟩ := hi
      obtain ⟨p, hp, hrp⟩ := exists_row_of_claimed hc hmem
      rw [OutboxRow.id_eq_of_asAppended hrp]
      exact (hrow p hp).le
    · have hnone : (t.rows.countP fun row => s.serial row.id = i) = 0 := by
        refine List.countP_eq_zero.mpr fun row hmem hrow' => hi ⟨row, hmem, ?_⟩
        exact of_decide_eq_true hrow'
      rw [claimsOf_claimed hc, hnone]
      exact h.bounded i

/-- A tick of a patient publisher counts its own claim. -/
theorem Counted.record (h : Counted m s) (hfiled : Filed pubs b s) (hcustody : Custody s)
    (hretries : ∀ cfg ∈ pubs, cfg.maxRetries = m) {t : Tick} {row : OutboxRow}
    {result : Except Failure Receipt} (hr : Recorded s s' t row result) : Counted m s' := by
  obtain ⟨ht, hrow⟩ := hr.mem
  refine h.advance hr.births hr.serial hr.claimLog fun r' hr' => ?_
  rw [hr.table, Outbox.changeClaimed_snd] at hr'
  obtain ⟨q, hq, rfl⟩ := List.mem_map.mp hr'
  by_cases hhit : Outbox.IsHit row.id q
  · have hheld := hcustody.held t ht row hrow
    have hqrow := hfiled.numbered.ordered.distinct q hq row hheld hhit.1
    subst hqrow
    rw [if_pos hhit, OutboxRow.id_eq_of_asAppended (asAppended_afterOutcome _ _ _ _ q)]
    exact (h.rows q hq).outcome hhit.2 (hretries t.cfg (hfiled.configured t ht)) s.now result
  · rw [if_neg hhit]
    exact h.rows q hq

/-- Every step keeps the count, where all publishers have one limit. -/
theorem counted_step (hretries : ∀ cfg ∈ pubs, cfg.maxRetries = m) (hfiled : Filed pubs b s)
    (hcustody : Custody s) (h : Counted m s) (hstep : Step pubs b s s') : Counted m s' := by
  cases effect_of_step hstep with
  | appended row ha => exact h.append ha
  | claimed cfg hcfg olderThan t hc => exact h.claim hfiled (hretries cfg hcfg) hc
  | delivered t row partition hd =>
    refine h.advance hd.births hd.serial hd.claimLog fun r hr => ?_
    rw [hd.table] at hr
    exact h.rows r hr
  | recorded t row result hr => exact h.record hfiled hcustody hretries hr
  | quiet hq =>
    exact h.advance hq.births hq.serial hq.claimLog fun r hr => h.rows r (hq.table.subset hr)

/-- In every run of patient publishers with one limit of attempts, claims are counted. -/
theorem counted_of_reachable (hpatient : Patient pubs)
    (hretries : ∀ cfg ∈ pubs, cfg.maxRetries = m) (h : Reachable pubs b s) : Counted m s := by
  induction h with
  | start desk => exact counted_start desk
  | step hreach hstep ih =>
    exact counted_step hretries (filed_of_reachable hreach)
      (custody_of_reachable hpatient hreach) ih hstep

/-! ## How a row is given up -/

/-- A row is given up by the outcome of a failed send, or by the watchdog. -/
def GivenUp (pubs : Set PublisherConfig) (b : Broker) (s s' : Relay) (r : OutboxRow) : Prop :=
  (∃ t cause, Recorded s s' t r (.error cause)) ∨
    ∃ cfg ∈ pubs, ∃ olderThan t, Claimed b cfg olderThan s s' t ∧ Outbox.isStale olderThan r = true

/-- The row that is given up when a batch is claimed was under a stale claim. -/
theorem isStale_of_failed {t : Outbox} {olderThan now : Instant} {maxRetries batch : Int}
    {r : OutboxRow} (hstatus : r.status ≠ .failed)
    (hfailed : (Outbox.afterClaim t olderThan maxRetries batch now r).status = .failed) :
    Outbox.isStale olderThan r = true ∧
      (Outbox.afterClaim t olderThan maxRetries batch now r).retryCount = r.retryCount + 1 := by
  unfold Outbox.afterClaim at hfailed ⊢
  dsimp only at hfailed ⊢
  split at hfailed
  · cases hfailed
  rename_i hleft
  rw [if_neg hleft]
  unfold Outbox.afterRelease at hfailed ⊢
  by_cases hstale : Outbox.isStale olderThan r = true
  · rw [if_pos hstale]
    exact ⟨hstale, Outbox.retryCount_released maxRetries r⟩
  · rw [if_neg hstale] at hfailed
    exact absurd hfailed hstatus

/-- A row that fails in a step is given up by it, with one failed attempt more. -/
theorem givenUp_of_step (hfiled : Filed pubs b s) (hcustody : Custody s)
    (hstep : Step pubs b s s') {r r' : OutboxRow} (hr : r ∈ s.table) (hr' : r' ∈ s'.table)
    (hid : r'.id = r.id) (hstatus : r.status ≠ .failed) (hfailed : r'.status = .failed) :
    r'.retryCount = r.retryCount + 1 ∧ GivenUp pubs b s s' r := by
  have hdistinct := hfiled.numbered.ordered.distinct
  have hchanged : r' ∉ s.table := by
    intro hold
    rw [hdistinct r' hold r hr hid] at hfailed
    exact hstatus hfailed
  cases effect_of_step hstep with
  | appended row ha =>
    rcases ha.mem_table hr' with hold | rfl
    · exact absurd hold hchanged
    · exact absurd hid.symm (Int.ne_of_lt (ha.above r hr))
  | claimed cfg hcfg olderThan t hc =>
    rw [hc.table, Outbox.claim_releaseStale_snd hfiled.numbered.ordered] at hr'
    obtain ⟨q, hq, rfl⟩ := List.mem_map.mp hr'
    rw [OutboxRow.id_eq_of_asAppended (Outbox.asAppended_afterClaim _ _ _ _ q)] at hid
    have hqr := hdistinct q hq r hr hid
    subst hqr
    obtain ⟨hstale, hcount⟩ := isStale_of_failed hstatus hfailed
    exact ⟨hcount, .inr ⟨cfg, hcfg, olderThan, t, hc, hstale⟩⟩
  | delivered t row partition hd =>
    rw [hd.table] at hr'
    exact absurd hr' hchanged
  | recorded t row result hrec =>
    obtain ⟨ht, hrow⟩ := hrec.mem
    have htable := hrec.table
    rw [Outbox.changeClaimed_snd] at htable
    rw [htable] at hr'
    obtain ⟨q, hq, rfl⟩ := List.mem_map.mp hr'
    by_cases hhit : Outbox.IsHit row.id q
    · rw [if_pos hhit] at hid hfailed ⊢
      rw [OutboxRow.id_eq_of_asAppended (asAppended_afterOutcome _ _ _ _ q)] at hid
      have hrow' := hdistinct row (hcustody.held t ht row hrow) r hr (hhit.1.symm.trans hid)
      subst hrow'
      cases result with
      | ok receipt => cases hfailed
      | error cause => exact ⟨rfl, .inl ⟨t, cause, hrec⟩⟩
    · rw [if_neg hhit] at hchanged
      exact absurd hq hchanged
  | quiet hq => exact absurd (hq.table.subset hr') hchanged

/-! ## What is given up -/

/-- A row is the same in a later state, has come under no claim, and is not sent. -/
structure LeftAlone (s s' : Relay) (r : OutboxRow) : Prop where
  /-- It is there unchanged. -/
  there : r ∈ s'.table
  /-- It has its number. -/
  serial : s'.serial r.id = s.serial r.id
  /-- It was not claimed. -/
  claims : s'.claimsOf (s.serial r.id) = s.claimsOf (s.serial r.id)
  /-- No message of it was taken in. -/
  deliveries : s'.deliveriesOf (s.serial r.id) = s.deliveriesOf (s.serial r.id)

/-- A row that is left alone on two stretches of a run is so on both together. -/
theorem LeftAlone.trans {s'' : Relay} {r : OutboxRow} (h : LeftAlone s s' r)
    (h' : LeftAlone s' s'' r) : LeftAlone s s'' r where
  there := h'.there
  serial := h'.serial.trans h.serial
  claims := by
    have hclaims := h'.claims
    rw [h.serial] at hclaims
    exact hclaims.trans h.claims
  deliveries := by
    have hdeliveries := h'.deliveries
    rw [h.serial] at hdeliveries
    exact hdeliveries.trans h.deliveries

/-- A row that is given up is no row of a tick. -/
theorem Custody.unsent (h : Custody s) (hfiled : Filed pubs b s) {r : OutboxRow}
    (hr : r ∈ s.table) (hfailed : r.status = .failed) :
    ∀ t ∈ s.ticks, ∀ row ∈ t.rows, t.serial row.id ≠ s.serial r.id := by
  intro t ht row hrow hserial
  have hheld := h.held t ht row hrow
  rw [h.serial t ht row hrow] at hserial
  have hid := hfiled.numbered.id_eq hheld hr hserial
  have hstatus := h.claimed t ht row hrow
  rw [hfiled.numbered.ordered.distinct row hheld r hr hid, hfailed] at hstatus
  cases hstatus

/-- Nothing happens to a row that is given up. -/
theorem leftAlone_step (hfiled : Filed pubs b s) (hcustody : Custody s)
    (hstep : Step pubs b s s') {r : OutboxRow} (hr : r ∈ s.table) (hfailed : r.status = .failed) :
    LeftAlone s s' r := by
  have hnext := serial_of_step hstep hr
  have hunsent := hcustody.unsent hfiled hr hfailed
  cases effect_of_step hstep with
  | appended row ha =>
    refine ⟨?_, hnext, congrFun (claimsOf_congr ha.claimLog) _,
      congrFun (deliveriesOf_congr ha.journal) _⟩
    rw [ha.table]
    exact List.mem_append_left _ hr
  | claimed cfg hcfg olderThan t hc =>
    have hfresh : Outbox.isStale olderThan r = false := by
      rw [Bool.eq_false_iff]
      intro hstale
      have hstatus := (Outbox.isStale_iff.mp hstale).1
      rw [hfailed] at hstatus
      cases hstatus
    have hstatus : r.status ≠ .pending := by
      rw [hfailed]
      exact nofun
    obtain ⟨hthere, hleft⟩ := mem_table_of_claimed hfiled hc hr hstatus hfresh
    refine ⟨hthere, hnext, ?_, congrFun (deliveriesOf_congr hc.journal) _⟩
    have hnone : (t.rows.countP fun row => s.serial row.id = s.serial r.id) = 0 := by
      refine List.countP_eq_zero.mpr fun row hrow hserial => ?_
      refine serial_not_mem hfiled hc hr hleft ?_
      exact List.mem_map.mpr ⟨row, hrow, of_decide_eq_true hserial⟩
    rw [claimsOf_claimed hc, hnone, Nat.add_zero]
  | delivered t row partition hd =>
    refine ⟨?_, hnext, congrFun (claimsOf_congr hd.claimLog) _, ?_⟩
    · rw [hd.table]
      exact hr
    · refine deliveriesOf_append hd.journal fun e he horigin => ?_
      obtain ⟨due, ending, hf, -⟩ := hd.airborne
      rw [List.mem_singleton.mp he] at horigin
      exact hunsent t hd.tick row (Tick.mem_rows hf) (Option.some.inj horigin)
  | recorded t row result hrec =>
    refine ⟨?_, hnext, congrFun (claimsOf_congr hrec.claimLog) _,
      congrFun (deliveriesOf_congr hrec.journal) _⟩
    rw [hrec.table, Outbox.changeClaimed_snd]
    refine List.mem_map.mpr ⟨r, hr, if_neg fun hhit => ?_⟩
    have hstatus := hhit.2
    rw [hfailed] at hstatus
    cases hstatus
  | quiet hq =>
    obtain ⟨others, hjournal, hothers⟩ := hq.journal
    refine ⟨?_, hnext, congrFun (claimsOf_congr hq.claimLog) _, ?_⟩
    · by_contra hgone
      have hstatus := hq.gone r hr hgone
      rw [hfailed] at hstatus
      cases hstatus
    · refine deliveriesOf_append hjournal fun e he horigin => ?_
      rw [hothers e he] at horigin
      cases horigin

/-- In every run of patient publishers, a row that is given up is left alone for good. -/
theorem leftAlone_of_steps (hpatient : Patient pubs) (h : Reachable pubs b s)
    (hsteps : Relation.ReflTransGen (Step pubs b) s s') {r : OutboxRow} (hr : r ∈ s.table)
    (hfailed : r.status = .failed) : LeftAlone s s' r := by
  induction hsteps with
  | refl => exact ⟨hr, rfl, rfl, rfl⟩
  | tail hpast hstep ih =>
    have hreach := reachable_of_steps h hpast
    exact ih.trans (leftAlone_step (filed_of_reachable hreach)
      (custody_of_reachable hpatient hreach) hstep ih.there hfailed)

/-! ## The bound -/

/-- Attempts are bounded: what a state of a run, and the steps from there on, show of it. -/
structure RetryBound (pubs : Set PublisherConfig) (b : Broker) (m : Int) (s : Relay) : Prop where
  /-- No row was claimed more often than it gets attempts. -/
  claims_le : ∀ i, (s.claimsOf i : Int) ≤ attemptLimit m
  /-- Nor sent: a tick sends nothing but what it starts with, and each of these sends counts as a
  claim of its row. -/
  sends_counted : ∀ s', Step pubs b s s' → ∀ t' ∈ s'.ticks, (∃ t ∈ s.ticks, t'.Trails t) ∨
    ∀ i, s'.claimsOf i = s.claimsOf i + t'.flights.countP fun f => t'.serial f.row.id = i
  /-- The claims of a row are its failed attempts, and one more if it is claimed or published. -/
  claims_eq : ∀ r ∈ s.table,
    (s.claimsOf (s.serial r.id) : Int) = r.retryCount + openClaims r.status
  /-- A row that waits has attempts left. -/
  pending_lt : ∀ r ∈ s.table, r.status = .pending → r.retryCount < attemptLimit m
  /-- A row is given up if and only if it has none left. -/
  failed_iff : ∀ r ∈ s.table, r.status = .failed ↔ r.retryCount = attemptLimit m
  /-- It is given up with its last attempt, by a failed send or by the watchdog. -/
  given_up : ∀ s', Step pubs b s s' → ∀ r ∈ s.table, ∀ r' ∈ s'.table, r'.id = r.id →
    r.status ≠ .failed → r'.status = .failed →
    r.retryCount + 1 = attemptLimit m ∧ r'.retryCount = attemptLimit m ∧ GivenUp pubs b s s' r
  /-- Afterwards it is never claimed nor sent. -/
  left_alone : ∀ r ∈ s.table, r.status = .failed → ∀ s',
    Relation.ReflTransGen (Step pubs b) s s' → LeftAlone s s' r ∧
      ∀ t ∈ s'.ticks, ∀ row ∈ t.rows, t.serial row.id ≠ s'.serial r.id

/-- The retry bound.  In every run of publishers with one limit of attempts, where no send of any
of them may take longer than a claim may last for any, attempts are bounded by it. -/
theorem retry_bound (hpatient : Patient pubs) (hretries : ∀ cfg ∈ pubs, cfg.maxRetries = m)
    (h : Reachable pubs b s) : RetryBound pubs b m s := by
  have hfiled := filed_of_reachable h
  have hcustody := custody_of_reachable hpatient h
  have hcounted := counted_of_reachable hpatient hretries h
  have hiff : ∀ r ∈ s.table, r.status = .failed ↔ r.retryCount = attemptLimit m := by
    intro r hr
    refine ⟨(hcounted.rows r hr).reached, fun hlimit => ?_⟩
    by_contra hstatus
    exact absurd hlimit (Int.ne_of_lt ((hcounted.rows r hr).below hstatus))
  constructor
  case claims_le => exact hcounted.bounded
  case sends_counted =>
    intro s' hstep t' ht'
    rcases tick_of_step hstep ht' with hold | ⟨cfg, -, olderThan, hc⟩
    · exact .inl hold
    · refine .inr fun i => ?_
      rw [claimsOf_claimed hc, hc.serial_eq]
      unfold Tick.rows
      rw [List.countP_map]
      rfl
  case claims_eq => exact fun r hr => (hcounted.rows r hr).counted
  case pending_lt =>
    intro r hr hstatus
    refine (hcounted.rows r hr).below ?_
    rw [hstatus]
    exact nofun
  case failed_iff => exact hiff
  case given_up =>
    intro s' hstep r hr r' hr' hid hstatus hfailed
    obtain ⟨hcount, hgiven⟩ := givenUp_of_step hfiled hcustody hstep hr hr' hid hstatus hfailed
    have hcounted' := counted_of_reachable hpatient hretries (.step h hstep)
    have hlimit := (hcounted'.rows r' hr').reached hfailed
    exact ⟨hcount.symm.trans hlimit, hlimit, hgiven⟩
  case left_alone =>
    intro r hr hfailed s' hsteps
    have hreach' := reachable_of_steps h hsteps
    have hleft := leftAlone_of_steps hpatient h hsteps hr hfailed
    exact ⟨hleft, (custody_of_reachable hpatient hreach').unsent (filed_of_reachable hreach')
      hleft.there hfailed⟩

/-! ## Two runs -/

/-- A publisher that tries a row twice, with these limits in seconds. -/
def twicePublisher (stale timeout : Int) : PublisherConfig where
  batch := 10
  maxRetries := 2
  staleAfter := .ofSeconds stale
  sendTimeout := .ofSeconds timeout
  retention := .ofSeconds 86400

/-- What is to be seen of the attempts of rows: where each stands, how many attempts failed, and how
often it was claimed. -/
def attempts (s : Relay) : List (OutboxStatus × Int × Nat) :=
  s.table.map fun r => (r.status, r.retryCount, s.claimsOf (s.serial r.id))

/-- The first send fails at its time limit; the second tick dies, and the third one gives the row
up. -/
def givenUpRun : List Move :=
  let cfg := twicePublisher 60 30
  let hanging : List (Outcome String) := [⟨.ofSeconds 300, .through⟩]
  [.append "users" "first" (some "k"), .claim cfg hanging, .pass (.ofSeconds 30), .land 0 0,
    .record 0, .leave 0, .claim cfg hanging, .leave 0, .pass (.ofSeconds 61), .claim cfg []]

/-- The attempts of this run are bounded, and none is left. -/
theorem retry_bound_of_givenUpRun : ∃ s, Reachable {twicePublisher 60 30} ⟨3, none⟩ s ∧
    attempts s = [(.failed, 2, 2)] ∧
    RetryBound {twicePublisher 60 30} ⟨3, none⟩ 2 s := by
  have hplays : (plays ⟨3, none⟩ (start emptyDesk) givenUpRun).map attempts =
      some [(.failed, 2, 2)] := by
    decide +kernel
  obtain ⟨s, hs, hattempts⟩ := Option.map_eq_some_iff.mp hplays
  have hreach : Reachable {twicePublisher 60 30} ⟨3, none⟩ s := by
    refine reachable_of_plays ?_ (.start emptyDesk) hs
    simp [givenUpRun, Move.Uses, FairSends, Turn.IsHonest]
  have hpatient : Patient {twicePublisher 60 30} := by
    rintro p rfl q rfl
    decide +kernel
  refine ⟨s, hreach, hattempts, retry_bound hpatient ?_ hreach⟩
  rintro cfg rfl
  rfl

/-- A publisher with wide limits sends a row while one with narrow limits takes the claim back and
sends the row too.  Then the first send fails: its tick writes the count that it knew plus one, as
if there had been no second claim, and the row is claimed again. -/
def recountedRun : List Move :=
  let slow := twicePublisher 200 100
  let quick := twicePublisher 60 30
  let hanging : List (Outcome String) := [⟨.ofSeconds 300, .through⟩]
  [.append "users" "first" (some "k"), .claim slow hanging, .pass (.ofSeconds 75),
    .claim quick hanging, .pass (.ofSeconds 25), .land 0 0, .record 0, .leave 0,
    .claim quick []]

/-- A row that gets two attempts is claimed three times: it does not suffice that each publisher
keeps its own limits apart. -/
theorem claims_exceed_limit : ∃ pubs b s, (∀ p ∈ pubs, p.maxRetries = 2) ∧
    (∀ p ∈ pubs, p.sendTimeout < p.staleAfter.rounded) ∧ Reachable pubs b s ∧
    attempts s = [(.processing, 1, 3)] ∧ ¬ (∀ i, (s.claimsOf i : Int) ≤ attemptLimit 2) := by
  have hplays : (plays ⟨3, none⟩ (start emptyDesk) recountedRun).map
      (fun s => (attempts s, s.claimsOf 0)) = some ([(.processing, 1, 3)], 3) := by
    decide +kernel
  obtain ⟨s, hs, hseen⟩ := Option.map_eq_some_iff.mp hplays
  obtain ⟨hattempts, hclaims⟩ := Prod.mk.inj hseen
  refine ⟨{twicePublisher 200 100, twicePublisher 60 30}, ⟨3, none⟩, s, ?_, ?_, ?_, hattempts,
    fun hbound => ?_⟩
  · rintro p (rfl | rfl) <;> rfl
  · rintro p (rfl | rfl) <;> decide +kernel
  · refine reachable_of_plays ?_ (.start emptyDesk) hs
    simp [recountedRun, Move.Uses, FairSends, Turn.IsHonest]
  · have hle := hbound 0
    rw [hclaims] at hle
    exact absurd hle (by decide)

end Publisher

end EventRelay
