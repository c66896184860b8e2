import EventRelay.Proofs.Publisher.Effects
import EventRelay.Proofs.Store.Load

/-!
# Ticks one after another

One publisher, whose ticks run one after another to their ends while nothing is appended.  A `Round`
is such a tick.  Until it is over, the rows under a claim are exactly those whose outcomes it has not
recorded yet, so every outcome that it records hits its row and lowers the load of the outbox.

* `recorded_or_passive`: a step aside records an outcome, or does nothing to unfinished rows.
* `round_lowers`: a round lowers the load by one for each row that it sends, and where it sends none,
  nothing is left.
* `rounds_lower`: so each round lowers the load, until nothing is left.

A tick with an empty batch is the crux: it must not leave a row behind that waits.  After stale claims
were taken back no row is under a claim, and then the waiting row of the smallest identifier is free,
whatever its key and its time of creation.
-/

namespace EventRelay

namespace Publisher

open Relay

variable {pubs : Set PublisherConfig} {b : Broker} {cfg : PublisherConfig} {s s' : Relay}

/-! ## Rounds -/

/-- A step in which nothing is appended and no batch is claimed. -/
structure Aside (pubs : Set PublisherConfig) (b : Broker) (s s' : Relay) : Prop where
  /-- It is a step. -/
  step : Step pubs b s s'
  /-- Nothing is appended. -/
  births : s'.births = s.births
  /-- No batch is claimed. -/
  claims : s'.claims = s.claims

/-- A tick that runs to its end while nothing is appended and no other tick begins: the outcomes of
its sends, the rows that it sends, and the states before and after it. -/
inductive Round (cfg : PublisherConfig) (b : Broker) (sends : List (Outcome String)) (s : Relay)
    (sent : List OutboxRow) : Relay → Prop where
  /-- It claims a batch, sends it, records all outcomes and returns. -/
  | run {script : DbScript} (hscript : FairScript script) (hsends : FairSends sends)
      (hfree : s.ticks = []) {t : Tick} (hclaim : (s.claim cfg b script sends).ticks = [t])
      (hsent : t.rows = sent) {u : Relay}
      (hrun : Relation.ReflTransGen (Aside {cfg} b) (s.claim cfg b script sends) u) {t' : Tick}
      (hlast : u.ticks = [t']) (hdone : t'.flights = []) : Round cfg b sends s sent (u.withTicks [])

/-- Rounds one after another with these outcomes of their sends, and pauses before them. -/
inductive Rounds (cfg : PublisherConfig) (b : Broker) :
    List (List (Outcome String)) → Relay → Relay → Prop where
  /-- No round. -/
  | none (s : Relay) : Rounds cfg b [] s s
  /-- One round, and then others. -/
  | next {sends : List (Outcome String)} {more : List (List (Outcome String))} {s u v w : Relay}
      {sent : List OutboxRow} (hpause : Relation.ReflTransGen (Aside {cfg} b) s u)
      (hround : Round cfg b sends u sent v) (h : Rounds cfg b more v w) :
      Rounds cfg b (sends :: more) s w

/-! ## Steps aside -/

/-- Nothing happens to unfinished rows and to the rows of ticks, but that a tick may die. -/
structure Passive (s s' : Relay) : Prop where
  /-- No row is new or changed. -/
  table : s'.table.Sublist s.table
  /-- A row that is gone was published. -/
  gone : ∀ r ∈ s.table, r ∉ s'.table → r.status = .published
  /-- Time may pass. -/
  now : s.now ≤ s'.now
  /-- A tick has the rows that it had. -/
  ticks : ∀ t' ∈ s'.ticks, ∃ t ∈ s.ticks, t'.cfg = t.cfg ∧ t'.rows = t.rows
  /-- No tick is new. -/
  length : s'.ticks.length ≤ s.ticks.length

/-- Where table and ticks are the same nothing happened to rows. -/
theorem passive_of_same (htable : s'.table = s.table) (hnow : s.now ≤ s'.now)
    (hticks : s'.ticks = s.ticks) : Passive s s' where
  table := by rw [htable]
  gone r hr hgone := absurd (htable ▸ hr) hgone
  now := hnow
  ticks t ht := ⟨t, hticks ▸ ht, rfl, rfl⟩
  length := by rw [hticks]

/-- A tick that dies leaves all rows as they are. -/
theorem passive_of_removed {before after : List Tick} {t : Tick}
    (ht : s.ticks = before ++ t :: after) (htable : s'.table = s.table) (hnow : s'.now = s.now)
    (hticks : s'.ticks = before ++ after) : Passive s s' where
  table := by rw [htable]
  gone r hr hgone := absurd (htable ▸ hr) hgone
  now := Int.le_of_eq hnow.symm
  ticks u hu := by
    rw [hticks] at hu
    exact ⟨u, mem_of_mem_remove ht hu, rfl, rfl⟩
  length := by
    rw [hticks, ht, List.length_append, List.length_append, List.length_cons]
    omega

/-- A tick that moves along with its rows leaves all rows as they are. -/
theorem passive_of_replaced {before after : List Tick} {t t' : Tick}
    (ht : s.ticks = before ++ t :: after) (htable : s'.table = s.table) (hnow : s'.now = s.now)
    (hticks : s'.ticks = before ++ t' :: after) (hcfg : t'.cfg = t.cfg)
    (hrows : t'.rows = t.rows) : Passive s s' where
  table := by rw [htable]
  gone r hr hgone := absurd (htable ▸ hr) hgone
  now := Int.le_of_eq hnow.symm
  ticks u hu := by
    rw [hticks] at hu
    rcases mem_of_mem_replace ht hu with hu | rfl
    · exact ⟨u, hu, rfl, rfl⟩
    · exact ⟨t, mem_of_split ht, hcfg, hrows⟩
  length := by
    rw [hticks, ht, List.length_append, List.length_append, List.length_cons, List.length_cons]

/-- A step aside records an outcome, or it does nothing to unfinished rows. -/
theorem recorded_or_passive (h : Aside pubs b s s') :
    (∃ t row result, Recorded s s' t row result) ∨ Passive s s' := by
  obtain ⟨hstep, hbirths, hclaims⟩ := h
  cases hstep with
  | append eventType topic payload key createdAt =>
    have := congrArg List.length hbirths
    rw [(appended_append eventType topic payload key createdAt).births, List.length_append] at this
    exact absurd this (Nat.succ_ne_self _)
  | @claim cfg hcfg script hscript sends hsends =>
    rcases claimed_or_failed (s := s) b cfg hscript sends with
      ⟨olderThan, t, hclaimed⟩ | ⟨-, htable, hticks, hnow, -⟩
    · exact absurd (hclaimed.claims.symm.trans hclaims) (Nat.succ_ne_self _)
    · exact .inr (passive_of_same htable (Int.le_of_eq hnow.symm) hticks)
  | @land before after t ht fs gs row due ending hf hdue =>
    have hrows := Tick.rows_land hf (finishSend b s.now row ending s.streams).1
    cases ending <;> exact .inr (passive_of_replaced ht rfl rfl rfl rfl hrows)
  | slip ht hf htime hp => exact .inr (passive_of_same rfl (Int.le_refl _) rfl)
  | record ht hover hf hscript =>
    rcases recorded_or_died ht hover hf hscript rfl with
      hrecorded | ⟨-, htable, hticks, hnow, -⟩
    · exact .inl ⟨_, _, _, hrecorded⟩
    · exact .inr (passive_of_removed ht htable hnow hticks)
  | leave ht => exact .inr (passive_of_removed ht rfl rfl rfl)
  | @clean cfg hcfg script hscript =>
    rcases table_cleanup (s := s) hscript cfg with htable | ⟨cutoff, -, htable⟩
    · exact .inr (passive_of_same htable (Int.le_refl _) rfl)
    · exact .inr
        { table := by
            rw [htable]
            exact Outbox.purge_sublist s.table cutoff
          gone := fun r hr hgone => Outbox.status_of_purged hr fun h => hgone (htable ▸ h)
          now := Int.le_refl _
          ticks := fun t ht => ⟨t, ht, rfl, rfl⟩
          length := Nat.le_refl _ }
  | other stream fields maxlen approximate => exact .inr (passive_of_same rfl (Int.le_refl _) rfl)
  | pass hle hwait => exact .inr (passive_of_same rfl hle rfl)

/-! ## Between rounds -/

/-- No tick is under way, and every row under a claim was claimed too long ago. -/
structure Ready (cfg : PublisherConfig) (s : Relay) : Prop where
  /-- No tick is under way. -/
  free : s.ticks = []
  /-- Identifiers grow along the outbox. -/
  ordered : s.table.Ordered
  /-- Rows under a claim were claimed before the limit. -/
  stale : ∀ r ∈ s.table, r.status = .processing →
    ∃ at', r.processedAt = some at' ∧ at' < s.now - cfg.staleAfter.rounded

/-- Where nothing happens to rows a tick can still begin afresh. -/
theorem Ready.passive (h : Ready cfg s) (hp : Passive s s') : Ready cfg s' where
  free := by
    have := hp.length
    rw [h.free] at this
    exact List.eq_nil_of_length_eq_zero (Nat.le_zero.mp this)
  ordered := (Outbox.descends_of_sublist hp.table).ordered h.ordered
  stale r hr hstatus := by
    obtain ⟨at', hat, hlt⟩ := h.stale r (hp.table.subset hr) hstatus
    refine ⟨at', hat, Int.lt_of_lt_of_le hlt ?_⟩
    have := hp.now
    unfold Instant Span at *
    omega

/-- A step beside the ticks leaves room for a tick, and only removes rows. -/
theorem ready_aside (h : Ready cfg s) (haside : Aside pubs b s s') :
    Ready cfg s' ∧ s'.table.Sublist s.table := by
  rcases recorded_or_passive haside with ⟨t, row, result, hrecorded⟩ | hp
  · have := hrecorded.mem.1
    rw [h.free] at this
    cases this
  · exact ⟨h.passive hp, hp.table⟩

/-- A pause leaves room for a tick, and only removes rows. -/
theorem ready_of_pause (h : Ready cfg s) (hpause : Relation.ReflTransGen (Aside pubs b) s s') :
    Ready cfg s' ∧ s'.table.Sublist s.table := by
  induction hpause with
  | refl => exact ⟨h, List.Sublist.refl _⟩
  | tail _ haside ih =>
    obtain ⟨hready, hsub⟩ := ready_aside ih.1 haside
    exact ⟨hready, hsub.trans ih.2⟩

/-! ## In a round -/

/-- The rows under a claim are those whose outcomes the only tick has still to record, and the load
has gone down by the number of the outcomes recorded. -/
structure Busy (cfg : PublisherConfig) (size load : Nat) (s : Relay) : Prop where
  /-- There is one tick, or it has died. -/
  single : s.ticks.length ≤ 1
  /-- Identifiers grow along the outbox. -/
  ordered : s.table.Ordered
  /-- The tick has these settings. -/
  cfg_eq : ∀ t ∈ s.ticks, t.cfg = cfg
  /-- It has no row twice. -/
  distinct : ∀ t ∈ s.ticks, (t.rows.map (·.id)).Nodup
  /-- Its rows are those under a claim. -/
  own : ∀ t ∈ s.ticks, ∀ r, r ∈ t.rows ↔ r ∈ s.table ∧ r.status = .processing
  /-- The load has gone down. -/
  lower : ∀ t ∈ s.ticks, s.table.load cfg.maxRetries + size ≤ load + t.rows.length

variable {size load : Nat}

/-- Where nothing happens to rows a tick still has as many outcomes to record. -/
theorem Busy.passive (h : Busy cfg size load s) (hp : Passive s s') : Busy cfg size load s' where
  single := Nat.le_trans hp.length h.single
  ordered := (Outbox.descends_of_sublist hp.table).ordered h.ordered
  cfg_eq t' ht' := by
    obtain ⟨t, ht, hcfg, -⟩ := hp.ticks t' ht'
    exact hcfg.trans (h.cfg_eq t ht)
  distinct t' ht' := by
    obtain ⟨t, ht, -, hrows⟩ := hp.ticks t' ht'
    rw [hrows]
    exact h.distinct t ht
  own t' ht' r := by
    obtain ⟨t, ht, -, hrows⟩ := hp.ticks t' ht'
    rw [hrows, h.own t ht r]
    refine ⟨fun ⟨hr, hstatus⟩ => ⟨?_, hstatus⟩, fun ⟨hr, hstatus⟩ => ⟨hp.table.subset hr, hstatus⟩⟩
    by_contra hgone
    rw [hp.gone r hr hgone] at hstatus
    cases hstatus
  lower t' ht' := by
    obtain ⟨t, ht, -, hrows⟩ := hp.ticks t' ht'
    have := h.lower t ht
    have := Outbox.load_le_of_sublist (m := cfg.maxRetries) hp.table
    rw [hrows]
    omega

/-- An outcome makes its row lighter: the row is finished, or one attempt nearer to the limit. -/
theorem weight_afterOutcome {row : OutboxRow} (hstatus : row.status = .processing) (now : Instant)
    (result : Except Failure Receipt) :
    Outbox.weight cfg.maxRetries (afterOutcome cfg now row result row) <
      Outbox.weight cfg.maxRetries row := by
  have hflight : row.status.inFlight = true := by
    rw [hstatus]
    rfl
  cases result with
  | ok receipt =>
    rw [Outbox.weight_of_finished (r := afterOutcome cfg now row (.ok receipt) row) rfl,
      Outbox.weight_of_inFlight hflight]
    omega
  | error cause =>
    refine Outbox.weight_lt_of_retry hflight rfl fun hafter hgiven => ?_
    have hfailed : (afterOutcome cfg now row (.error cause) row).status = .failed := if_pos hgiven
    rw [hfailed] at hafter
    cases hafter

/-- An outcome that is recorded takes one off the load. -/
theorem Busy.record (h : Busy cfg size load s) {t : Tick} {row : OutboxRow}
    {result : Except Failure Receipt} (hr : Recorded s s' t row result) :
    Busy cfg size load s' := by
  obtain ⟨before, after, rest, hold, hf, hnew⟩ := hr.ticks
  have ht : t ∈ s.ticks := mem_of_split hold
  -- the tick is the only one
  have hsplit : before = [] ∧ after = [] := by
    have := h.single
    rw [hold, List.length_append, List.length_cons] at this
    exact ⟨List.eq_nil_of_length_eq_zero (by omega), List.eq_nil_of_length_eq_zero (by omega)⟩
  have honly : ∀ u ∈ s'.ticks, u = { t with flights := rest } := by
    intro u hu
    rw [hnew, hsplit.1, hsplit.2] at hu
    exact List.mem_singleton.mp hu
  have hrows : t.rows = row :: rest.map Flight.row := Tick.rows_of_landed hf
  have hdistinct := h.ordered.distinct
  have hids := h.distinct t ht
  rw [hrows, List.map_cons, List.nodup_cons] at hids
  have hrow := (h.own t ht row).mp (by rw [hrows]; exact List.mem_cons_self)
  have hchanged := hr.table
  rw [Outbox.changeClaimed_snd] at hchanged
  constructor
  case single =>
    rw [hnew, hsplit.1, hsplit.2]
    exact Nat.le_refl 1
  case ordered =>
    rw [hr.table]
    exact (Outbox.changeClaimed_descends _ _
      (asAppended_afterOutcome t.cfg s.now row result)).ordered h.ordered
  case cfg_eq =>
    intro u hu
    rw [honly u hu]
    exact h.cfg_eq t ht
  case distinct =>
    intro u hu
    rw [honly u hu]
    exact hids.2
  case own =>
    intro u hu r
    rw [honly u hu, hchanged]
    change r ∈ rest.map Flight.row ↔ _
    constructor
    · intro hrest
      obtain ⟨hrt, hstatus⟩ := (h.own t ht r).mp (by rw [hrows]; exact List.mem_cons_of_mem _ hrest)
      refine ⟨List.mem_map.mpr ⟨r, hrt, if_neg fun hhit => ?_⟩, hstatus⟩
      exact hids.1 (hhit.1 ▸ List.mem_map_of_mem hrest)
    · rintro ⟨hmem, hstatus⟩
      obtain ⟨q, hq, rfl⟩ := List.mem_map.mp hmem
      by_cases hhit : Outbox.IsHit row.id q
      · rw [if_pos hhit] at hstatus
        exact absurd hstatus (status_afterOutcome t.cfg s.now row result q)
      · rw [if_neg hhit] at hstatus ⊢
        have hqt := (h.own t ht q).mpr ⟨hq, hstatus⟩
        rw [hrows] at hqt
        rcases List.mem_cons.mp hqt with rfl | hqt
        · exact absurd ⟨rfl, hstatus⟩ hhit
        · exact hqt
  case lower =>
    intro u hu
    have hlight : Outbox.weight cfg.maxRetries (afterOutcome t.cfg s.now row result row) <
        Outbox.weight cfg.maxRetries row := by
      rw [h.cfg_eq t ht]
      exact weight_afterOutcome hrow.2 s.now result
    have hlower := h.lower t ht
    have hlt := Outbox.load_changeClaimed_lt hdistinct hrow.1 hrow.2 hlight
    rw [hrows, List.length_cons] at hlower
    rw [honly u hu, hr.table]
    change _ ≤ load + (rest.map Flight.row).length
    omega

/-- Steps while a tick is under way keep the account of its load. -/
theorem busy_of_steps (h : Busy cfg size load s)
    (hsteps : Relation.ReflTransGen (Aside pubs b) s s') : Busy cfg size load s' := by
  induction hsteps with
  | refl => exact h
  | tail _ haside ih =>
    rcases recorded_or_passive haside with ⟨t, row, result, hrecorded⟩ | hp
    · exact ih.record hrecorded
    · exact ih.passive hp

/-- A tick that begins while nothing else is under way has all rows under a claim.  If its batch is
empty, nothing is left. -/
theorem busy_of_claimed (h : Ready cfg s) (hbatch : 1 ≤ cfg.batch) {olderThan : Instant} {t : Tick}
    (hc : Claimed b cfg olderThan s s' t) :
    Busy cfg t.rows.length (s'.table.load cfg.maxRetries) s' ∧
      s'.table.load cfg.maxRetries ≤ s.table.load cfg.maxRetries ∧
      (t.rows = [] → s'.table.load cfg.maxRetries = 0) := by
  let released := (s.table.releaseStale olderThan cfg.maxRetries).2
  have htable : s'.table = (released.claim cfg.batch s.now).2 := hc.table
  have hrows : t.rows = (released.chosen cfg.batch).map (Outbox.claimed s.now) := hc.rows
  have hordered : released.Ordered :=
    (Outbox.releaseStale_descends s.table olderThan cfg.maxRetries).ordered h.ordered
  have hnone : ∀ r ∈ released, r.status ≠ .processing := by
    intro r hr
    refine Outbox.status_ne_processing_of_releaseStale (fun q hq hstatus => ?_) hr
    obtain ⟨at', hat, hlt⟩ := h.stale q hq hstatus
    rw [← eq_of_before hc.limit] at hlt
    exact Outbox.isStale_iff.mpr ⟨hstatus, at', hat, hlt⟩
  have hload : s'.table.load cfg.maxRetries = released.load cfg.maxRetries := by
    rw [htable, Outbox.load_claim hordered.distinct]
  have honly : ∀ u ∈ s'.ticks, u = t := by
    intro u hu
    rw [hc.ticks, h.free] at hu
    exact List.mem_singleton.mp hu
  refine ⟨?_, hload ▸ Outbox.load_releaseStale_le s.table olderThan cfg.maxRetries, fun hempty => ?_⟩
  · constructor
    case single =>
      rw [hc.ticks, h.free]
      exact Nat.le_refl 1
    case ordered =>
      rw [htable]
      exact (Outbox.claim_descends _ _ _).ordered hordered
    case cfg_eq =>
      intro u hu
      rw [honly u hu, hc.cfg_eq]
    case distinct =>
      intro u hu
      rw [honly u hu, hrows, List.map_map]
      exact Outbox.nodup_chosen_ids hordered.nodup
    case own =>
      intro u hu r
      rw [honly u hu, hrows, htable, Outbox.claim_snd hordered.distinct]
      constructor
      · intro hr
        obtain ⟨q, hq, rfl⟩ := List.mem_map.mp hr
        exact ⟨List.mem_map.mpr ⟨q, (Outbox.mem_of_mem_chosen hq).1, if_pos hq⟩, rfl⟩
      · rintro ⟨hr, hstatus⟩
        obtain ⟨q, hq, rfl⟩ := List.mem_map.mp hr
        by_cases hchosen : q ∈ released.chosen cfg.batch
        · rw [if_pos hchosen]
          exact List.mem_map_of_mem hchosen
        · rw [if_neg hchosen] at hstatus
          exact absurd hstatus (hnone q hq)
    case lower =>
      intro u hu
      rw [honly u hu]
  · -- an empty batch: no row waits, and none is under a claim
    rw [hload]
    refine Outbox.load_eq_zero_iff.mpr fun r hr => ?_
    by_contra hflight
    rw [Bool.not_eq_false] at hflight
    have hwaits : r.status = .pending := (Outbox.inFlight_iff.mp hflight).resolve_right (hnone r hr)
    obtain ⟨q, hq, heligible⟩ := Outbox.exists_isEligible hordered hnone hr hwaits
    rw [hrows] at hempty
    exact Outbox.chosen_ne_nil hbatch hq heligible (List.map_eq_nil_iff.mp hempty)

/-! ## Round by round -/

/-- A round takes an attempt off the load for each row that it sends; a round that sends none leaves
nothing.  It can be followed by another one. -/
theorem round_lowers (h : Ready cfg s) (hbatch : 1 ≤ cfg.batch) {sends : List (Outcome String)}
    {sent : List OutboxRow} (hround : Round cfg b sends s sent s') :
    Ready cfg s' ∧ s'.table.load cfg.maxRetries + sent.length ≤ s.table.load cfg.maxRetries ∧
      (sent = [] → s'.table.load cfg.maxRetries = 0) := by
  cases hround with
  | @run script hscript hsends hfree t hclaim hsent u hrun t' hlast hdone =>
    rcases claimed_or_failed (s := s) b cfg hscript sends with
      ⟨olderThan, t₀, hclaimed⟩ | ⟨-, -, hticks, -, -⟩
    · have htick : t = t₀ := by
        rw [hclaimed.ticks, hfree] at hclaim
        exact (List.singleton_inj.mp hclaim).symm
      subst htick
      obtain ⟨hbusy, hle, hnothing⟩ := busy_of_claimed h hbatch hclaimed
      have hend := busy_of_steps hbusy hrun
      have ht' : t' ∈ u.ticks := hlast ▸ List.mem_cons_self
      have hrows : t'.rows = [] := by
        unfold Tick.rows
        rw [hdone]
        rfl
      have hlower := hend.lower t' ht'
      rw [hrows, List.length_nil, hsent] at hlower
      change Ready cfg (u.withTicks []) ∧ u.table.load cfg.maxRetries + _ ≤ _ ∧
        (_ → u.table.load cfg.maxRetries = 0)
      refine ⟨⟨rfl, hend.ordered, fun r hr hstatus => ?_⟩, by omega, fun hempty => ?_⟩
      · have := (hend.own t' ht' r).mpr ⟨hr, hstatus⟩
        rw [hrows] at this
        cases this
      · have := hnothing (hsent.trans hempty)
        omega
    · rw [hticks, hfree] at hclaim
      cases hclaim

/-- Each round takes one attempt at least off the load. -/
theorem rounds_lower (h : Ready cfg s) (hbatch : 1 ≤ cfg.batch)
    {sends : List (List (Outcome String))} (hrounds : Rounds cfg b sends s s') :
    Ready cfg s' ∧ s'.table.load cfg.maxRetries ≤ s.table.load cfg.maxRetries - sends.length := by
  induction hrounds with
  | none s => exact ⟨h, Nat.le_refl _⟩
  | @next sends more s u v w sent hpause hround _ ih =>
    obtain ⟨hready, hsub⟩ := ready_of_pause h hpause
    obtain ⟨hready', hlower, hnothing⟩ := round_lowers hready hbatch hround
    obtain ⟨hready'', hle⟩ := ih hready'
    have := Outbox.load_le_of_sublist (m := cfg.maxRetries) hsub
    refine ⟨hready'', ?_⟩
    rw [List.length_cons]
    cases sent with
    | nil =>
      have := hnothing rfl
      omega
    | cons row rest =>
      rw [List.length_cons] at hlower
      omega

end Publisher

end EventRelay
