import EventRelay.Proofs.Publisher.Bookkeeping
import Mathlib.Data.List.Nodup

/-!
# The rows of a tick are its own

Where no send may take longer than a claim may last, a tick keeps its claims until it records their
outcomes: the watchdog of no publisher takes them back before, so nobody else claims them.

* `Patient`: no send may take longer than a claim may last, for any two of the publishers.
* `Custody`: every row of a tick is in the outbox as the tick claimed it, under the tick's claim.
* `custody_of_reachable`: it holds in every run of patient publishers.
-/

namespace EventRelay

namespace Publisher

open Relay

variable {pubs : Set PublisherConfig} {b : Broker} {s s' : Relay}

/-- No send of a publisher may take longer than a claim may last for another. -/
def Patient (pubs : Set PublisherConfig) : Prop :=
  ∀ p ∈ pubs, ∀ q ∈ pubs, max 0 p.sendTimeout ≤ q.staleAfter.rounded

/-- What a tick may count on for the rows whose outcomes it has not recorded yet. -/
structure Custody (s : Relay) : Prop where
  /-- A row of a tick is in the outbox as it was claimed. -/
  held : ∀ t ∈ s.ticks, ∀ row ∈ t.rows, row ∈ s.table
  /-- It is claimed. -/
  claimed : ∀ t ∈ s.ticks, ∀ row ∈ t.rows, row.status = .processing
  /-- It was claimed when the tick began. -/
  since : ∀ t ∈ s.ticks, ∀ row ∈ t.rows, row.processedAt = some t.claimedAt
  /-- Its number is still the same. -/
  serial : ∀ t ∈ s.ticks, ∀ row ∈ t.rows, t.serial row.id = s.serial row.id
  /-- The last claim that it came under is that of the tick. -/
  own : ∀ t ∈ s.ticks, ∀ row ∈ t.rows, s.claimOf? (s.serial row.id) = some t.number
  /-- No two ticks have one row, and no tick has it twice. -/
  alone : (s.ticks.flatMap fun t => t.rows.map (·.id)).Nodup

/-- In the beginning no tick has rows in its custody. -/
theorem custody_start (desk : Session) : Custody (start desk) where
  held _ ht := absurd ht List.not_mem_nil
  claimed _ ht := absurd ht List.not_mem_nil
  since _ ht := absurd ht List.not_mem_nil
  serial _ ht := absurd ht List.not_mem_nil
  own _ ht := absurd ht List.not_mem_nil
  alone := List.nodup_nil

/-- Ticks keep what they have where no row of theirs is touched. -/
theorem Custody.trail (h : Custody s) (hbooks : SameBooks s s') (hticks : Trail s'.ticks s.ticks)
    (hheld : ∀ t' ∈ s'.ticks, ∀ row ∈ t'.rows, row ∈ s.table → row.status = .processing →
      row ∈ s'.table) : Custody s' where
  held t' ht' row hrow := by
    obtain ⟨t, ht, htrail⟩ := hticks.each t' ht'
    have hrow' := htrail.rows.subset hrow
    exact hheld t' ht' row hrow (h.held t ht row hrow') (h.claimed t ht row hrow')
  claimed t' ht' row hrow := by
    obtain ⟨t, ht, htrail⟩ := hticks.each t' ht'
    exact h.claimed t ht row (htrail.rows.subset hrow)
  since t' ht' row hrow := by
    obtain ⟨t, ht, htrail⟩ := hticks.each t' ht'
    rw [htrail.claimedAt]
    exact h.since t ht row (htrail.rows.subset hrow)
  serial t' ht' row hrow := by
    obtain ⟨t, ht, htrail⟩ := hticks.each t' ht'
    rw [htrail.serial, hbooks.serial]
    exact h.serial t ht row (htrail.rows.subset hrow)
  own t' ht' row hrow := by
    obtain ⟨t, ht, htrail⟩ := hticks.each t' ht'
    unfold claimOf?
    rw [htrail.number, hbooks.serial, hbooks.claimLog]
    exact h.own t ht row (htrail.rows.subset hrow)
  alone := h.alone.sublist hticks.ids

/-- A row that is appended is in nobody's custody. -/
theorem Custody.append (h : Custody s) {row : OutboxRow} (ha : Appended s s' row) :
    Custody s' := by
  have hserial : ∀ r ∈ s.table, s'.serial r.id = s.serial r.id := fun r hr => ha.serial_of_mem hr
  refine
    { held := fun t ht r hr => ?_
      claimed := ha.ticks ▸ h.claimed
      since := ha.ticks ▸ h.since
      serial := fun t ht r hr => ?_
      own := fun t ht r hr => ?_
      alone := ha.ticks ▸ h.alone }
  all_goals rw [ha.ticks] at ht
  · rw [ha.table]
    exact List.mem_append_left _ (h.held t ht r hr)
  · rw [hserial r (h.held t ht r hr)]
    exact h.serial t ht r hr
  · unfold claimOf?
    rw [hserial r (h.held t ht r hr), ha.claimLog]
    exact h.own t ht r hr

/-! ## Claims -/

/-- A patient watchdog takes no row of a tick back. -/
theorem isStale_eq_false (hpatient : Patient pubs) {cfg : PublisherConfig} (hcfg : cfg ∈ pubs)
    {olderThan : Instant} (hlimit : s.now.before cfg.staleAfter = .ok olderThan) {t : Tick}
    (htcfg : t.cfg ∈ pubs) (htime : t.OnTime s.now) {row : OutboxRow}
    (hsince : row.processedAt = some t.claimedAt) : Outbox.isStale olderThan row = false := by
  rw [Bool.eq_false_iff]
  intro hstale
  obtain ⟨-, at', hat, hlt⟩ := Outbox.isStale_iff.mp hstale
  rw [hsince] at hat
  cases hat
  have hle := hpatient t.cfg htcfg cfg hcfg
  have hage := htime.age
  rw [eq_of_before hlimit] at hlt
  unfold Instant Span at *
  omega

/-- The last claim of a row in the log is the one that was just made, if it was in the batch. -/
theorem lookup_claimed (serial : OutboxRow → Nat) (rows : List OutboxRow) (number k : Nat)
    (log : List (Nat × Nat)) :
    (rows.map (fun row => (serial row, number)) ++ log).lookup k =
      if k ∈ rows.map serial then some number else log.lookup k := by
  induction rows with
  | nil => rfl
  | cons row rows ih =>
    rw [List.map_cons, List.cons_append, List.lookup_cons, List.map_cons]
    by_cases hk : k = serial row
    · rw [if_pos (by rw [hk]; exact List.mem_cons_self)]
      simp [hk]
    · have hne : (k == serial row) = false := by simpa using hk
      rw [hne, ih]
      simp [hk]

/-- A row that does not wait, and that the watchdog leaves alone, the claim leaves alone too. -/
theorem mem_table_of_claimed (hfiled : Filed pubs b s) {cfg : PublisherConfig}
    {olderThan : Instant} {t : Tick} (hc : Claimed b cfg olderThan s s' t) {row : OutboxRow}
    (hrow : row ∈ s.table) (hstatus : row.status ≠ .pending)
    (hfresh : Outbox.isStale olderThan row = false) :
    row ∈ s'.table ∧ ∀ q ∈ Outbox.chosen (s.table.releaseStale olderThan cfg.maxRetries).2
      cfg.batch, q.id ≠ row.id := by
  have hdistinct := ((Outbox.releaseStale_descends s.table olderThan cfg.maxRetries).ordered
    hfiled.numbered.ordered).distinct
  have hkept : row ∈ (s.table.releaseStale olderThan cfg.maxRetries).2 := by
    rw [Outbox.releaseStale_snd]
    refine List.mem_map.mpr ⟨row, hrow, ?_⟩
    unfold Outbox.afterRelease
    rw [hfresh]
    rfl
  have hleft : ∀ q ∈ Outbox.chosen (s.table.releaseStale olderThan cfg.maxRetries).2 cfg.batch,
      q.id ≠ row.id := by
    intro q hq hid
    obtain ⟨hmem, heligible⟩ := Outbox.mem_of_mem_chosen hq
    have hpending := Outbox.status_of_isEligible heligible
    rw [hdistinct q hmem row hkept hid] at hpending
    exact hstatus hpending
  refine ⟨?_, hleft⟩
  rw [hc.table, Outbox.claim_snd hdistinct]
  refine List.mem_map.mpr ⟨row, hkept, ?_⟩
  rw [if_neg fun hmem => hleft row hmem rfl]

/-- The rows of the new tick are those chosen. -/
theorem exists_chosen {cfg : PublisherConfig} {olderThan : Instant} {t : Tick}
    (hc : Claimed b cfg olderThan s s' t) {row : OutboxRow} (hrow : row ∈ t.rows) :
    ∃ q ∈ Outbox.chosen (s.table.releaseStale olderThan cfg.maxRetries).2 cfg.batch,
      row = Outbox.claimed s.now q := by
  rw [hc.rows, Outbox.claim_fst] at hrow
  obtain ⟨q, hq, rfl⟩ := List.mem_map.mp hrow
  exact ⟨q, hq, rfl⟩

/-- The rows of the new tick are rows of the outbox. -/
theorem exists_row_of_claimed {cfg : PublisherConfig} {olderThan : Instant} {t : Tick}
    (hc : Claimed b cfg olderThan s s' t) {row : OutboxRow} (hrow : row ∈ t.rows) :
    ∃ r ∈ s.table, row.asAppended = r.asAppended := by
  obtain ⟨q, hq, rfl⟩ := exists_chosen hc hrow
  obtain ⟨r, hr, hqr⟩ := (Outbox.releaseStale_descends s.table olderThan cfg.maxRetries).each q
    (Outbox.mem_of_mem_chosen hq).1
  exact ⟨r, hr, hqr⟩

/-- A row comes under the claim if the new tick has it, and stays under its own one otherwise. -/
theorem claimOf?_claimed {cfg : PublisherConfig} {olderThan : Instant} {t : Tick}
    (hc : Claimed b cfg olderThan s s' t) (serial : Nat) :
    s'.claimOf? serial = if serial ∈ t.rows.map (fun row => s.serial row.id) then some t.number
      else s.claimOf? serial := by
  unfold claimOf?
  rw [hc.claimLog, hc.number, lookup_claimed (fun row => s.serial row.id)]

/-- A row of the outbox that was not chosen has no number of a row of the new tick. -/
theorem serial_not_mem (hfiled : Filed pubs b s) {cfg : PublisherConfig} {olderThan : Instant}
    {t : Tick} (hc : Claimed b cfg olderThan s s' t) {row : OutboxRow} (hrow : row ∈ s.table)
    (hleft : ∀ q ∈ Outbox.chosen (s.table.releaseStale olderThan cfg.maxRetries).2 cfg.batch,
      q.id ≠ row.id) :
    s.serial row.id ∉ t.rows.map fun row => s.serial row.id := by
  intro hmem
  obtain ⟨row', hrow', hserial⟩ := List.mem_map.mp hmem
  obtain ⟨q, hq, rfl⟩ := exists_chosen hc hrow'
  obtain ⟨r, hr, hqr⟩ := (Outbox.releaseStale_descends s.table olderThan cfg.maxRetries).each q
    (Outbox.mem_of_mem_chosen hq).1
  have hid : q.id = r.id := OutboxRow.id_eq_of_asAppended hqr
  have hserial' : s.serial r.id = s.serial row.id := by
    rw [← hid]
    exact hserial
  exact hleft q hq (hid.trans (hfiled.numbered.id_eq hr hrow hserial'))

/-- A claim takes rows into custody that no other tick can still count on. -/
theorem Custody.claim (h : Custody s) (hfiled : Filed pubs b s) (hpunctual : Punctual s)
    (hpatient : Patient pubs) {cfg : PublisherConfig} (hcfg : cfg ∈ pubs) {olderThan : Instant}
    {t : Tick} (hc : Claimed b cfg olderThan s s' t) : Custody s' := by
  have hordered := (Outbox.releaseStale_descends s.table olderThan cfg.maxRetries).ordered
    hfiled.numbered.ordered
  have hold : ∀ u ∈ s.ticks, ∀ row ∈ u.rows, row ∈ s'.table ∧
      ∀ q ∈ Outbox.chosen (s.table.releaseStale olderThan cfg.maxRetries).2 cfg.batch,
        q.id ≠ row.id := by
    intro u hu row hrow
    have hstatus : row.status ≠ .pending := by
      rw [h.claimed u hu row hrow]
      exact nofun
    exact mem_table_of_claimed hfiled hc (h.held u hu row hrow) hstatus
      (isStale_eq_false hpatient hcfg hc.limit (hfiled.configured u hu) (hpunctual u hu)
        (h.since u hu row hrow))
  constructor
  case held =>
    intro u hu row hrow
    rcases hc.mem_ticks hu with hu | rfl
    · exact (hold u hu row hrow).1
    · obtain ⟨q, hq, rfl⟩ := exists_chosen hc hrow
      rw [hc.table, Outbox.claim_snd hordered.distinct]
      exact List.mem_map.mpr ⟨q, (Outbox.mem_of_mem_chosen hq).1, if_pos hq⟩
  case claimed =>
    intro u hu row hrow
    rcases hc.mem_ticks hu with hu | rfl
    · exact h.claimed u hu row hrow
    · obtain ⟨q, -, rfl⟩ := exists_chosen hc hrow
      rfl
  case since =>
    intro u hu row hrow
    rcases hc.mem_ticks hu with hu | rfl
    · exact h.since u hu row hrow
    · obtain ⟨q, -, rfl⟩ := exists_chosen hc hrow
      rw [hc.claimedAt]
      rfl
  case serial =>
    intro u hu row hrow
    rw [hc.serial]
    rcases hc.mem_ticks hu with hu | rfl
    · exact h.serial u hu row hrow
    · rw [hc.serial_eq]
  case own =>
    intro u hu row hrow
    rw [hc.serial, claimOf?_claimed hc]
    rcases hc.mem_ticks hu with hu | rfl
    · rw [if_neg (serial_not_mem hfiled hc (h.held u hu row hrow) (hold u hu row hrow).2)]
      exact h.own u hu row hrow
    · rw [if_pos (List.mem_map_of_mem hrow)]
  case alone =>
    rw [hc.ticks, List.flatMap_append, List.nodup_append]
    have hids : ([t].flatMap fun t => t.rows.map (·.id)) =
        (Outbox.chosen (s.table.releaseStale olderThan cfg.maxRetries).2 cfg.batch).map (·.id) := by
      rw [List.flatMap_singleton, hc.rows, Outbox.claim_fst, List.map_map]
      rfl
    rw [hids]
    refine ⟨h.alone, Outbox.nodup_chosen_ids hordered.nodup, fun i hi j hj hij => ?_⟩
    obtain ⟨u, hu, hi⟩ := List.mem_flatMap.mp hi
    obtain ⟨row, hrow, rfl⟩ := List.mem_map.mp hi
    obtain ⟨q, hq, rfl⟩ := List.mem_map.mp hj
    exact (hold u hu row hrow).2 q hq hij.symm

/-! ## Outcomes -/

/-- An outcome is recorded in the row of the tick, and no other tick has a row of that
identifier. -/
theorem Custody.record (h : Custody s) {t : Tick} {row : OutboxRow}
    {result : Except Failure Receipt} (hr : Recorded s s' t row result) : Custody s' := by
  obtain ⟨before, after, rest, hold, hf, hnew⟩ := hr.ticks
  have hrows : t.rows = row :: rest.map Flight.row := Tick.rows_of_landed hf
  have hother : ∀ t' ∈ s'.ticks, ∀ r ∈ t'.rows, r.id ≠ row.id := by
    have halone := h.alone
    rw [hold] at halone
    simp only [List.flatMap_append, List.flatMap_cons, hrows, List.map_cons,
      List.cons_append] at halone
    have hgone := (List.nodup_cons.mp (List.nodup_middle.mp halone)).1
    intro t' ht' r hmem hid
    refine hgone ?_
    rw [← hid]
    rw [hnew] at ht'
    have hin : r.id ∈ (before ++ { t with flights := rest } :: after).flatMap
        fun t => t.rows.map (·.id) :=
      List.mem_flatMap.mpr ⟨t', ht', List.mem_map_of_mem hmem⟩
    rw [List.flatMap_append, List.flatMap_cons] at hin
    exact hin
  refine h.trail hr.toSameBooks hr.trail fun t' ht' r hmem htable hstatus => ?_
  rw [hr.table, Outbox.changeClaimed_snd]
  refine List.mem_map.mpr ⟨r, htable, ?_⟩
  rw [if_neg fun hhit => hother t' ht' r hmem hhit.1]

/-- Every step keeps what ticks count on, where all publishers are patient. -/
theorem custody_step (hpatient : Patient pubs) (hfiled : Filed pubs b s)
    (hpunctual : Punctual s) (h : Custody s) (hstep : Step pubs b s s') : Custody s' := by
  cases effect_of_step hstep with
  | appended row ha => exact h.append ha
  | claimed cfg hcfg olderThan t hc => exact h.claim hfiled hpunctual hpatient hcfg hc
  | delivered t row partition hd =>
    refine h.trail hd.toSameBooks hd.ticks fun t' _ r _ htable _ => ?_
    rw [hd.table]
    exact htable
  | recorded t row result hr => exact h.record hr
  | quiet hq =>
    refine h.trail hq.toSameBooks hq.ticks fun t' _ r _ htable hstatus => ?_
    by_contra hgone
    rw [hq.gone r htable hgone] at hstatus
    cases hstatus

/-- In every run of patient publishers a tick has its rows to itself. -/
theorem custody_of_reachable (hpatient : Patient pubs) (h : Reachable pubs b s) : Custody s := by
  induction h with
  | start desk => exact custody_start desk
  | step hreach hstep ih =>
    exact custody_step hpatient (filed_of_reachable hreach) (punctual_of_reachable hreach) ih hstep

end Publisher

end EventRelay
