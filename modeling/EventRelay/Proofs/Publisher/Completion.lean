import EventRelay.Proofs.Publisher.Solo

/-!
# Ticks drain the outbox

The load of the outbox says how many rounds it takes until every row is finished.  And there are such
rounds: a tick that nothing disturbs returns, as time passes until its last send is over, and then it
records its outcomes.  It only needs numbers that the database takes and dates that the calendar has.

* `exists_round`, `exists_rounds`: whatever becomes of the sends, a tick can run to its end, and so can
  as many of them as the numbers have room for.
* `ticks_drain`: after as many rounds as the load says every row is finished, and later rounds send
  nothing.
-/

namespace EventRelay

namespace Publisher

open Relay

variable {b : Broker} {cfg : PublisherConfig} {s : Relay} {t : Tick}

/-! ## A round -/

/-- What the database can be told of the settings. -/
structure Tellable (cfg : PublisherConfig) : Prop where
  /-- The size of a batch. -/
  batch : Scalar.fitsWord cfg.batch = true
  /-- The number of attempts. -/
  retries : Scalar.fitsWord cfg.maxRetries = true

/-- The number of attempts of a row can grow for some rounds yet, by two in each of them: its claim may
be taken back, and then a send may fail. -/
structure HasRoom (rounds : Nat) (r : OutboxRow) : Prop where
  /-- The database takes its identifier. -/
  id : Scalar.fitsWord r.id = true
  /-- The number is not too small. -/
  least : Scalar.leastWord ≤ r.retryCount
  /-- It is not too large. -/
  most : r.retryCount + 2 * rounds ≤ Scalar.greatestWord

/-- A row that has room, and a failure can be recorded for it besides if it is under a claim. -/
structure Spare (rounds : Nat) (r : OutboxRow) : Prop extends HasRoom rounds r where
  /-- There is room for one failure more. -/
  claimed : r.status = .processing → r.retryCount + 1 + 2 * rounds ≤ Scalar.greatestWord

variable {pubs : Set PublisherConfig} {s' : Relay} {n size load : Nat}

/-- A row with room to spare can have a failure recorded. -/
theorem Spare.recordable {r : OutboxRow} (h : Spare n r) (hstatus : r.status = .processing) :
    Recordable r := by
  refine ⟨h.id, ?_⟩
  have hleast := h.least
  have hmost := h.claimed hstatus
  unfold Scalar.fitsWord
  simp only [Bool.and_eq_true, decide_eq_true_eq]
  omega

/-- A claim uses up one attempt of a row at most, and leaves room for another one. -/
theorem spare_of_claimed (hordered : s.table.Ordered) {olderThan : Instant}
    (hc : Claimed b cfg olderThan s s' t) (h : ∀ r ∈ s.table, HasRoom (n + 1) r) :
    ∀ r ∈ s'.table, Spare n r := by
  intro r' hr'
  rw [hc.table, Outbox.claim_releaseStale_snd hordered] at hr'
  obtain ⟨r, hr, rfl⟩ := List.mem_map.mp hr'
  have hroom := h r hr
  have hid : (Outbox.afterClaim s.table olderThan cfg.maxRetries cfg.batch s.now r).id = r.id :=
    OutboxRow.id_eq_of_asAppended (Outbox.asAppended_afterClaim _ _ _ _ _)
  have hcount : r.retryCount ≤
        (Outbox.afterClaim s.table olderThan cfg.maxRetries cfg.batch s.now r).retryCount ∧
      (Outbox.afterClaim s.table olderThan cfg.maxRetries cfg.batch s.now r).retryCount ≤
        r.retryCount + 1 := by
    have hreleased := Outbox.retryCount_afterRelease olderThan cfg.maxRetries r
    unfold Outbox.afterClaim
    dsimp only
    split
    · exact hreleased
    · exact hreleased
  have hleast := hroom.least
  have hmost := hroom.most
  exact
    { id := hid ▸ hroom.id
      least := by omega
      most := by omega
      claimed := fun _ => by omega }

/-- In a round every row keeps its room. -/
theorem spare_aside (hbusy : Busy cfg size load s) (h : ∀ r ∈ s.table, Spare n r)
    (haside : Aside pubs b s s') : ∀ r ∈ s'.table, Spare n r := by
  rcases recorded_or_passive haside with ⟨t, row, result, hrec⟩ | hp
  · intro r' hr'
    rw [hrec.table, Outbox.changeClaimed_snd] at hr'
    obtain ⟨r, hr, rfl⟩ := List.mem_map.mp hr'
    by_cases hhit : Outbox.IsHit row.id r
    · rw [if_pos hhit]
      have hrow := ((hbusy.own t hrec.mem.1 row).mp hrec.mem.2)
      have hsame : r = row := hbusy.ordered.distinct r hr row hrow.1 hhit.1
      have hspare := h row hrow.1
      have hstatus := status_afterOutcome t.cfg s.now row result r
      subst hsame
      cases result with
      | ok receipt =>
        exact
          { id := hspare.id
            least := hspare.least
            most := hspare.most
            claimed := fun hprocessing => absurd hprocessing hstatus }
      | error cause =>
        have hleast := hspare.least
        exact
          { id := hspare.id
            least := by
              change _ ≤ r.retryCount + 1
              omega
            most := hspare.claimed hrow.2
            claimed := fun hprocessing => absurd hprocessing hstatus }
    · rw [if_neg hhit]
      exact h r hr
  · exact fun r hr => h r (hp.table.subset hr)

/-- Steps beside the ticks leave the rows the room that they have. -/
theorem spare_of_steps (hbusy : Busy cfg size load s) (h : ∀ r ∈ s.table, Spare n r)
    (hsteps : Relation.ReflTransGen (Aside pubs b) s s') : ∀ r ∈ s'.table, Spare n r := by
  induction hsteps with
  | refl => exact h
  | tail hsteps haside ih => exact spare_aside (busy_of_steps hbusy hsteps) ih haside

/-- Whatever becomes of its sends, a tick can run to its end. -/
theorem exists_round (htellable : Tellable cfg) (hbatch : 1 ≤ cfg.batch) (hready : Ready cfg s)
    {olderThan : Instant} (hold : s.now.before cfg.staleAfter = .ok olderThan)
    (hrows : ∀ r ∈ s.table, HasRoom (n + 1) r) {sends : List (Outcome String)}
    (hsends : FairSends sends) :
    ∃ sent s', Round cfg b sends s sent s' ∧ s.now ≤ s'.now ∧
      s'.now ≤ s.now + max 0 cfg.sendTimeout ∧ ∀ r ∈ s'.table, HasRoom n r := by
  obtain ⟨rows, hok⟩ := ok_claimBatch htellable.batch htellable.retries
    { s.desk with script := .none } rfl hold
  rcases claimed_or_failed (s := s) b cfg fairScript_none sends with
    ⟨olderThan, t, hclaimed⟩ | ⟨hbooks, -, -, -, -⟩
  · let u := s.claim cfg b .none sends
    have hu : u.ticks = [t] := by
      rw [hclaimed.ticks, hready.free]
      rfl
    have hbusy := (busy_of_claimed hready hbatch hclaimed).1
    have hspare := spare_of_claimed hready.ordered hclaimed hrows
    have hdues : ∀ row due ending, .airborne row due ending ∈ t.flights →
        due ≤ s.now + max 0 cfg.sendTimeout := by
      intro row due ending hf
      obtain ⟨row', due', ending', heq, htimely⟩ := hclaimed.flights _ hf
      cases heq
      exact htimely.1
    have hnow : u.now ≤ s.now + max 0 cfg.sendTimeout := by
      rw [hclaimed.now]
      unfold Instant Span
      omega
    obtain ⟨v, t', hlanding, hv, hover, hrows', hcfg, htable, hle, hlast⟩ :=
      exists_landed b _ hu rfl hnow hdues
    have hlanded : Relation.ReflTransGen (Aside {cfg} b) u v := asides_of_course hlanding
    have hbusy' := busy_of_steps hbusy hlanded
    have hspare' := spare_of_steps hbusy hspare hlanded
    obtain ⟨_, w, hrecording, hw, hnow'⟩ := exists_recorded b hv rfl hover
      fun row hrow => by
        have hown := (hbusy'.own t' (hv ▸ List.mem_cons_self) row).mp hrow
        exact (hspare' row hown.1).recordable hown.2
    have hrun := hlanded.trans (asides_of_course hrecording)
    refine ⟨t.rows, w.withTicks [], .run fairScript_none hsends hready.free hu rfl hrun hw rfl,
      ?_, ?_, fun r hr => (spare_of_steps hbusy hspare hrun r hr).toHasRoom⟩
    · rw [hclaimed.now] at hle
      exact hnow' ▸ hle
    · exact hnow' ▸ hlast
  · -- the claim goes through, so it is counted
    have hclaims : (s.claim cfg b .none sends).claims = s.claims + 1 := by
      unfold Relay.claim Relay.transact
      simp only [hok]
    exact absurd (hclaims.symm.trans hbooks.claims) (Nat.succ_ne_self _)

/-- So can as many ticks as there is room for, one after another. -/
theorem exists_rounds (htellable : Tellable cfg) (hbatch : 1 ≤ cfg.batch) (hready : Ready cfg s)
    {sends : List (List (Outcome String))} (hsends : ∀ outcomes ∈ sends, FairSends outcomes)
    (hrows : ∀ r ∈ s.table, HasRoom sends.length r)
    (hdates : ∀ later : Instant, s.now ≤ later →
      later ≤ s.now + sends.length * max 0 cfg.sendTimeout →
      ∃ olderThan, later.before cfg.staleAfter = .ok olderThan) :
    ∃ s', Rounds cfg b sends s s' := by
  induction sends generalizing s with
  | nil => exact ⟨s, .none s⟩
  | cons outcomes more ih =>
    have hspan : 0 ≤ max 0 cfg.sendTimeout := Int.le_max_left _ _
    have hlength : ((outcomes :: more).length : Int) * max 0 cfg.sendTimeout =
        more.length * max 0 cfg.sendTimeout + max 0 cfg.sendTimeout := by
      rw [List.length_cons, Int.natCast_succ, Int.add_mul, Int.one_mul]
    have hmore : 0 ≤ (more.length : Int) * max 0 cfg.sendTimeout :=
      Int.mul_nonneg (Int.natCast_nonneg _) hspan
    rw [hlength] at hdates
    obtain ⟨olderThan, hold⟩ := hdates s.now (Int.le_refl _) (by
      unfold Instant Span at *
      omega)
    obtain ⟨sent, u, hround, hle, hlast, hroom⟩ := exists_round (b := b) htellable hbatch hready
      hold hrows (hsends outcomes List.mem_cons_self)
    obtain ⟨s', hrounds⟩ := ih (round_lowers hready hbatch hround).1
      (fun o ho => hsends o (List.mem_cons_of_mem _ ho)) hroom fun later hlater hend =>
        hdates later (Int.le_trans hle hlater) (by
          unfold Instant Span at *
          omega)
    exact ⟨s', .next .refl hround hrounds⟩

/-! ## To the end -/

/-- Ticks drain the outbox: from any outbox in which all claims are stale, whatever becomes of the
sends, after as many rounds as there are attempts left every row is published or given up, and a later
round sends nothing. -/
theorem ticks_drain (h : Ready cfg s) (hbatch : 1 ≤ cfg.batch)
    {sends : List (List (Outcome String))}
    (henough : s.table.load cfg.maxRetries ≤ sends.length) (hrounds : Rounds cfg b sends s s') :
    (∀ r ∈ s'.table, r.status = .published ∨ r.status = .failed) ∧
      ∀ more u v, Rounds cfg b more s' u → Relation.ReflTransGen (Aside {cfg} b) u v →
        ∀ outcomes sent w, Round cfg b outcomes v sent w → sent = [] := by
  obtain ⟨hready, hle⟩ := rounds_lower h hbatch hrounds
  have hzero : s'.table.load cfg.maxRetries = 0 := by omega
  refine ⟨fun r hr => Outbox.inFlight_eq_false_iff.mp (Outbox.load_eq_zero_iff.mp hzero r hr), ?_⟩
  intro more u v hmore hpause outcomes sent w hround
  obtain ⟨hreadyu, hleu⟩ := rounds_lower hready hbatch hmore
  obtain ⟨hreadyv, hsub⟩ := ready_of_pause hreadyu hpause
  have := Outbox.load_le_of_sublist (m := cfg.maxRetries) hsub
  have hlower := (round_lowers hreadyv hbatch hround).2.1
  exact List.eq_nil_of_length_eq_zero (by omega)

/-- A publisher that claims one row at a time and tries it three times. -/
def frugalPublisher : PublisherConfig where
  batch := 1
  maxRetries := 3
  staleAfter := .ofSeconds 30
  sendTimeout := .ofSeconds 10
  retention := .ofSeconds 86400

/-- One key has a row that is published, one under a claim an hour old, and one that waits and was
created before both; a row without a key waits although it used up its attempts. -/
def tangledOutbox : Relay :=
  let hour := Span.ofSeconds 3600
  let rows : Outbox :=
    [Work.rowOf 2 (some "k") .published .origin,
      { Work.rowOf 3 (some "k") .processing .origin with
        processedAt := some (.origin - hour), retryCount := 1 },
      Work.rowOf 5 (some "k") .pending (.origin - hour),
      { Work.rowOf 8 none .pending .origin with retryCount := 7 }]
  { start emptyDesk with desk := { emptyDesk with stored := { Database.empty with outbox := rows } } }

/-- In the tangled outbox no tick is under way and the only claim is stale. -/
theorem ready_tangledOutbox : Ready frugalPublisher tangledOutbox where
  free := rfl
  ordered := by
    unfold Outbox.Ordered
    decide
  stale := by
    have hstale : ∀ r ∈ tangledOutbox.table, r.status = .processing →
        r.processedAt.any (· < tangledOutbox.now - frugalPublisher.staleAfter.rounded) = true := by
      decide +kernel
    intro r hr hstatus
    obtain ⟨at', hat, hlt⟩ := (Option.any_eq_true _ _).mp (hstale r hr hstatus)
    exact ⟨at', hat, of_decide_eq_true hlt⟩

/-- What becomes of the sends of six ticks: one hangs, three go through and two fail. -/
def mixedSends : List (List (Outcome String)) :=
  [[⟨.ofSeconds 60, .through⟩], [⟨0, .through⟩], [⟨.ofSeconds 3, .raise .timedOut⟩],
    [⟨0, .raise .timedOut⟩], [⟨0, .through⟩], []]

/-- The load is six, and six ticks can run to their ends and finish every row. -/
theorem ticks_drain_of_tangledOutbox :
    ∃ s', Rounds frugalPublisher ⟨3, none⟩ mixedSends tangledOutbox s' ∧
      tangledOutbox.table.load frugalPublisher.maxRetries = mixedSends.length ∧
      ∀ r ∈ s'.table, r.status = .published ∨ r.status = .failed := by
  have hload : tangledOutbox.table.load frugalPublisher.maxRetries = mixedSends.length := by decide
  have hfirst : Instant.ofDate ⟨1, 1, 1⟩ ≤ tangledOutbox.now - frugalPublisher.staleAfter.rounded := by
    decide +kernel
  have hlast : tangledOutbox.now + (mixedSends.length : Int) * max 0 frugalPublisher.sendTimeout <
      Instant.ofDate ⟨10000, 1, 1⟩ + frugalPublisher.staleAfter.rounded := by
    decide +kernel
  have hroom : ∀ r ∈ tangledOutbox.table, Scalar.fitsWord r.id = true ∧
      Scalar.leastWord ≤ r.retryCount ∧
      r.retryCount + 2 * (mixedSends.length : Int) ≤ Scalar.greatestWord := by
    decide
  obtain ⟨s', hrounds⟩ : ∃ s', Rounds frugalPublisher ⟨3, none⟩ mixedSends tangledOutbox s' := by
    refine exists_rounds ⟨by decide, by decide⟩ (by decide) ready_tangledOutbox
      (by simp [mixedSends, FairSends, Turn.IsHonest])
      (fun r hr => ⟨(hroom r hr).1, (hroom r hr).2.1, (hroom r hr).2.2⟩) fun later hge hle => ?_
    refine ⟨later - frugalPublisher.staleAfter.rounded, ?_⟩
    have hdated : Instant.isDated (later - frugalPublisher.staleAfter.rounded) = true := by
      unfold Instant.isDated
      simp only [Bool.and_eq_true, decide_eq_true_eq]
      unfold Instant Span at *
      omega
    unfold Instant.before Instant.dated
    rw [if_pos hdated]
  exact ⟨s', hrounds, hload,
    (ticks_drain ready_tangledOutbox (by decide) (Nat.le_of_eq hload) hrounds).1⟩

end Publisher

end EventRelay
