import EventRelay.Proofs.Publisher.Solo

/-!
# The verdicts of a batch

What becomes of the rows of a batch while the sends of a tick alone are under way: each row has the
verdict of its own send, whatever becomes of the others.

* `verdict`: why the send of a row fails, if it does; `afterVerdict`: the row afterwards.
* `bears_launchAll`: a send that is started carries the verdict of its row.
* `Underway`: what holds at each moment of a tick alone.
* `underway_of_course`: it is kept by the steps of the tick.

The sends end in any order, but their outcomes are recorded in the order of the batch and all at one
instant: time does not pass any more once the first is recorded.
-/

namespace EventRelay

namespace Publisher

open Relay

variable {cfg : PublisherConfig} {b : Broker} {plan : Int → Outcome String}
variable {s s' u : Relay} {n : Nat}

/-! ## Verdicts -/

/-- Why the send of a row fails, if it does: there is no partition for it, or it takes too long, or
it raises.  What becomes of sends is planned by the identifiers of their rows. -/
def verdict (cfg : PublisherConfig) (b : Broker) (plan : Int → Outcome String)
    (row : OutboxRow) : Option Failure :=
  match partitionFor row.routingKey b.partitions with
  | .error e => some e
  | .ok _ =>
    if cfg.sendTimeout ≤ (plan row.id).delay then some .timedOut
    else
      match (plan row.id).turn with
      | .raise e => some (recorded e)
      | _ => none

/-- Plans that agree on a row give it one verdict. -/
theorem verdict_congr {plan' : Int → Outcome String} {row : OutboxRow}
    (h : plan row.id = plan' row.id) : verdict cfg b plan row = verdict cfg b plan' row := by
  unfold verdict
  rw [h]

/-- A row after its verdict at an instant: it is published, or one attempt more has failed. -/
def afterVerdict (cfg : PublisherConfig) (now : Instant) (v : Option Failure)
    (row : OutboxRow) : OutboxRow :=
  match v with
  | none => { row with status := .published, processedAt := some now }
  | some cause =>
    { row with
      status := if cfg.maxRetries ≤ row.retryCount + 1 then .failed else .pending
      retryCount := row.retryCount + 1
      errorMessage := some (causeText cause) }

/-- The verdict that a result is recorded for. -/
def verdictOf : Except Failure Receipt → Option Failure
  | .ok _ => none
  | .error e => some e

/-- An outcome writes the verdict that its result stands for. -/
theorem afterOutcome_eq (now : Instant) (row : OutboxRow) (result : Except Failure Receipt) :
    afterOutcome cfg now row result row = afterVerdict cfg now (verdictOf result) row := by
  cases result <;> rfl

/-- A verdict changes no identifier. -/
theorem id_afterVerdict (now : Instant) (v : Option Failure) (row : OutboxRow) :
    (afterVerdict cfg now v row).id = row.id := by
  cases v <;> rfl

/-- After a verdict a row is not under a claim. -/
theorem status_afterVerdict (now : Instant) (v : Option Failure) (row : OutboxRow) :
    (afterVerdict cfg now v row).status ≠ .processing := by
  cases v with
  | none => exact nofun
  | some cause =>
    unfold afterVerdict
    dsimp only
    split <;> exact nofun

/-! ## Sends -/

/-- The verdict that a send under way comes to. -/
def Ending.verdict : Ending → Option Failure
  | .fail e => some e
  | _ => none

/-- The result of a send stands for the verdict that it came to. -/
theorem verdictOf_finishSend (now : Instant) (row : OutboxRow) (ending : Ending)
    (streams : Streams) :
    verdictOf (finishSend b now row ending streams).1 = ending.verdict := by
  cases ending <;> rfl

/-- A send ends by an instant and comes, or has come, to the verdict of its row. -/
def Flight.Bears (cfg : PublisherConfig) (b : Broker) (plan : Int → Outcome String)
    (last : Instant) : Flight → Prop
  | .airborne row due ending => due ≤ last ∧ ending.verdict = verdict cfg b plan row
  | .landed row result => verdictOf result = verdict cfg b plan row

section sends

variable (plan) (htime : 0 < cfg.sendTimeout) (now : Instant)

include htime

/-- Without a partition a send comes to its verdict at once, and asks for no outcome. -/
theorem bears_launch_of_no_partition {row : OutboxRow} {e : Failure}
    (hpart : partitionFor row.routingKey b.partitions = .error e) (script : List (Outcome String)) :
    (launch cfg b now (fun span => now + span) row script).1.Bears cfg b plan
        (now + cfg.sendTimeout) ∧
      (launch cfg b now (fun span => now + span) row script).2 = script := by
  unfold launch
  rw [if_neg (Int.not_le.mpr htime), hpart]
  refine ⟨⟨?_, ?_⟩, rfl⟩
  · unfold Instant Span at *
    omega
  · unfold verdict
    rw [hpart]
    rfl

/-- A send with a partition comes to the verdict that is planned for its row. -/
theorem bears_launch {row : OutboxRow} {p : Int}
    (hpart : partitionFor row.routingKey b.partitions = .ok p) (script : List (Outcome String)) :
    (launch cfg b now (fun span => now + span) row (plan row.id :: script)).1.Bears cfg b plan
        (now + cfg.sendTimeout) ∧
      (launch cfg b now (fun span => now + span) row (plan row.id :: script)).2 = script := by
  have hverdict : verdict cfg b plan row =
      if cfg.sendTimeout ≤ (plan row.id).delay then some .timedOut
      else match (plan row.id).turn with
        | .raise e => some (recorded e)
        | _ => none := by
    unfold verdict
    rw [hpart]
  unfold launch
  rw [if_neg (Int.not_le.mpr htime), hpart]
  dsimp only [Outcome.next]
  by_cases hlate : cfg.sendTimeout ≤ (plan row.id).delay
  · rw [if_pos hlate] at hverdict ⊢
    exact ⟨⟨Int.le_refl _, hverdict.symm⟩, rfl⟩
  · rw [if_neg hlate] at hverdict ⊢
    refine ⟨⟨?_, ?_⟩, rfl⟩
    · unfold Instant Span at *
      omega
    · rw [hverdict]
      cases (plan row.id).turn <;> rfl

/-- Without partitions no send asks the broker. -/
theorem bears_launchAll_of_no_partition {e : Failure} {rows : List OutboxRow}
    (hpart : ∀ key, partitionFor key b.partitions = .error e) (script : List (Outcome String)) :
    ∀ f ∈ (launchAll cfg b now (fun span => now + span) rows script).1,
      f.Bears cfg b plan (now + cfg.sendTimeout) := by
  induction rows generalizing script with
  | nil => exact fun f hf => absurd hf List.not_mem_nil
  | cons row rows ih =>
    intro f hf
    unfold launchAll at hf
    obtain ⟨hbears, hscript⟩ := bears_launch_of_no_partition plan htime now
      (hpart row.routingKey) script
    rcases List.mem_cons.mp hf with rfl | hf
    · exact hbears
    · exact ih _ f hf

/-- A send that is started carries the verdict of its row. -/
theorem bears_launchAll (rows : List OutboxRow) :
    ∀ f ∈ (launchAll cfg b now (fun span => now + span) rows (rows.map fun r => plan r.id)).1,
      f.Bears cfg b plan (now + cfg.sendTimeout) := by
  by_cases hnone : b.partitions = 0
  · exact bears_launchAll_of_no_partition plan htime now (fun key => if_pos hnone) _
  induction rows with
  | nil => exact fun f hf => absurd hf List.not_mem_nil
  | cons row rows ih =>
    intro f hf
    unfold launchAll at hf
    have hpart : partitionFor row.routingKey b.partitions = .ok _ := if_neg hnone
    obtain ⟨hbears, hscript⟩ := bears_launch plan htime now hpart (rows.map fun r => plan r.id)
    rcases List.mem_cons.mp hf with rfl | hf
    · exact hbears
    · refine ih f ?_
      rw [List.map_cons, hscript] at hf
      exact hf

end sends

/-! ## A batch under way -/

/-- A batch as it is claimed: its rows are different rows of the outbox, and under a claim. -/
structure Batch (base : Outbox) (rows : List OutboxRow) : Prop where
  /-- No two rows of the outbox have one identifier. -/
  ids : (base.map (·.id)).Nodup
  /-- The rows are in the outbox. -/
  mem : ∀ row ∈ rows, row ∈ base
  /-- No row comes twice. -/
  nodup : rows.Nodup
  /-- They are under a claim. -/
  status : ∀ row ∈ rows, row.status = .processing

/-- A row of the outbox once some rows of a batch have had their verdicts. -/
def judged (cfg : PublisherConfig) (b : Broker) (plan : Int → Outcome String) (now : Instant)
    (done : List OutboxRow) (r : OutboxRow) : OutboxRow :=
  if r ∈ done then afterVerdict cfg now (verdict cfg b plan r) r else r

/-- How many of these rows are published by their verdicts. -/
def publishedAmong (cfg : PublisherConfig) (b : Broker) (plan : Int → Outcome String)
    (rows : List OutboxRow) : Nat := rows.countP fun row => (verdict cfg b plan row).isNone

/-- A tick alone that began at an instant with a batch, of which some rows are done. -/
structure Underway (cfg : PublisherConfig) (b : Broker) (plan : Int → Outcome String)
    (begun : Instant) (base : Outbox) (rows : List OutboxRow) (n : Nat) (u : Relay) (t : Tick)
    (done : List OutboxRow) : Prop where
  /-- It is the only tick. -/
  ticks : u.ticks = [t]
  /-- It has the settings of its publisher. -/
  cfg_eq : t.cfg = cfg
  /-- The rows are done in the order of the batch. -/
  rows_eq : rows = done ++ t.rows
  /-- Its sends come to the verdicts of their rows, within the time limit. -/
  sends : ∀ f ∈ t.flights, f.Bears cfg b plan (begun + cfg.sendTimeout)
  /-- When a row is done, all sends are over. -/
  landed : done ≠ [] → nextDue? t.flights = none
  /-- The rows that are done have had their verdicts, and the others are as they were. -/
  table : u.table = base.map (judged cfg b plan u.now done)
  /-- The rows published are counted. -/
  count : n = publishedAmong cfg b plan done
  /-- Time does not go back. -/
  since : begun ≤ u.now
  /-- The time limit is kept. -/
  within : u.now ≤ begun + cfg.sendTimeout

variable {begun : Instant} {base : Outbox} {rows done : List OutboxRow} {t : Tick}

/-- Where no row is done, the outbox is as it was, whatever the time. -/
theorem judged_nil (now : Instant) : judged cfg b plan now [] = id :=
  funext fun _ => if_neg List.not_mem_nil

/-- One row more is done, by a change that gives it its verdict. -/
theorem judged_append {row : OutboxRow} {rest : List OutboxRow} (h : Batch base rows)
    (hrows : rows = done ++ row :: rest) {now : Instant} {change : OutboxRow → OutboxRow}
    (hchange : change row = afterVerdict cfg now (verdict cfg b plan row) row) :
    (base.map (judged cfg b plan now done)).map (fun r =>
        if Outbox.IsHit row.id r then change r else r) =
      base.map (judged cfg b plan now (done ++ [row])) := by
  have hmem : row ∈ rows := by
    rw [hrows]
    exact List.mem_append_right _ List.mem_cons_self
  have hnot : row ∉ done := by
    have hnodup := h.nodup
    rw [hrows] at hnodup
    exact fun hdone => (List.disjoint_of_nodup_append hnodup) hdone List.mem_cons_self
  rw [List.map_map]
  refine List.map_congr_left fun r hr => ?_
  by_cases hdone : r ∈ done
  · have hjudged : judged cfg b plan now done r = afterVerdict cfg now (verdict cfg b plan r) r :=
      if_pos hdone
    have hmiss : ¬ Outbox.IsHit row.id (afterVerdict cfg now (verdict cfg b plan r) r) :=
      fun hhit => status_afterVerdict now _ r hhit.2
    rw [Function.comp_apply, hjudged, if_neg hmiss]
    exact (if_pos (List.mem_append_left _ hdone)).symm
  have hkept : judged cfg b plan now done r = r := if_neg hdone
  rw [Function.comp_apply, hkept]
  by_cases hrow : r = row
  · subst hrow
    rw [if_pos ⟨rfl, h.status r hmem⟩, hchange]
    exact (if_pos (List.mem_append_right _ List.mem_cons_self)).symm
  · have hmiss : ¬ Outbox.IsHit row.id r := fun hhit =>
      hrow (Outbox.distinct_of_nodup h.ids r hr row (h.mem row hmem) hhit.1)
    rw [if_neg hmiss]
    refine (if_neg fun hlast => ?_).symm
    rcases List.mem_append.mp hlast with hlast | hlast
    · exact hdone hlast
    · exact hrow (List.mem_singleton.mp hlast)

/-! ## Steps -/

/-- An outcome that is recorded changes the claimed row of its identifier, and it is told whether a
row is published by it. -/
theorem recorded_of_ok {script : DbScript} (hscript : FairScript script) {row : OutboxRow}
    {result : Except Failure Receipt} {published : Bool}
    (hok : (s.transact script (reconcile cfg row result)).1 = .ok published) :
    (s.transact script (reconcile cfg row result)).2.table =
        (s.table.changeClaimed row.id (afterOutcome cfg s.now row result)).2 ∧
      published = ((verdictOf result).isNone && s.table.isClaimed row.id) := by
  unfold Relay.transact at hok ⊢
  rcases run_reconcile (s := { s.desk with script }) hscript cfg row result with
    ⟨e, hresult, -, -⟩ | ⟨published', outbox, hresult, hstored, houtbox, hpublished, -⟩
  · exact absurd (hresult.symm.trans hok) nofun
  · cases Except.ok.inj (hresult.symm.trans hok)
    refine ⟨(congrArg Database.outbox hstored).trans (houtbox.trans ?_), hpublished.trans ?_⟩
    · cases result <;> rfl
    · cases result <;> rfl

/-- A row of a batch that is not done is still under its claim. -/
theorem isClaimed_of_underway (hbatch : Batch base rows)
    (h : Underway cfg b plan begun base rows n u t done) {row : OutboxRow} (hrow : row ∈ t.rows) :
    u.table.isClaimed row.id = true := by
  have hmem : row ∈ rows := by
    rw [h.rows_eq]
    exact List.mem_append_right _ hrow
  have hnot : row ∉ done := by
    have hnodup := hbatch.nodup
    rw [h.rows_eq] at hnodup
    exact fun hdone => (List.disjoint_of_nodup_append hnodup) hdone hrow
  rw [Outbox.isClaimed_iff, h.table]
  exact ⟨row, List.mem_map.mpr ⟨row, hbatch.mem row hmem, if_neg hnot⟩, rfl,
    hbatch.status row hmem⟩

/-- A row more is published if its verdict says so. -/
theorem publishedAmong_append (row : OutboxRow) (done : List OutboxRow) :
    publishedAmong cfg b plan (done ++ [row]) =
      publishedAmong cfg b plan done + (verdict cfg b plan row).isNone.toNat := by
  unfold publishedAmong
  rw [List.countP_append, List.countP_singleton]
  cases (verdict cfg b plan row).isNone <;> rfl

/-- The next outcome is recorded: the row has its verdict, and is counted if it is published. -/
theorem Underway.record (hbatch : Batch base rows)
    (h : Underway cfg b plan begun base rows n u t done) (hover : nextDue? t.flights = none)
    {row : OutboxRow} {result : Except Failure Receipt} {rest : List Flight}
    (hf : t.flights = .landed row result :: rest) {script : DbScript} (hscript : FairScript script)
    {published : Bool} (hok : (u.transact script (reconcile t.cfg row result)).1 = .ok published) :
    Underway cfg b plan begun base rows (n + published.toNat)
      ((u.transact script (reconcile t.cfg row result)).2.withTicks [{ t with flights := rest }])
      { t with flights := rest } (done ++ [row]) := by
  have hrows : t.rows = row :: rest.map Flight.row := Tick.rows_of_landed hf
  have hverdict : verdictOf result = verdict cfg b plan row :=
    h.sends (.landed row result) (hf ▸ List.mem_cons_self)
  obtain ⟨htable, hpublished⟩ := recorded_of_ok hscript hok
  have hsplit : rows = done ++ row :: rest.map Flight.row := by rw [h.rows_eq, hrows]
  constructor
  case ticks => rfl
  case cfg_eq => exact h.cfg_eq
  case rows_eq =>
    rw [hsplit, List.append_assoc]
    rfl
  case sends => exact fun f hmem => h.sends f (hf ▸ List.mem_cons_of_mem _ hmem)
  case landed =>
    intro _
    have hall := nextDue_eq_none_iff.mp hover
    exact nextDue_eq_none_iff.mpr fun f hmem => hall f (hf ▸ List.mem_cons_of_mem _ hmem)
  case table =>
    refine htable.trans ?_
    rw [Outbox.changeClaimed_snd, h.table]
    refine judged_append hbatch hsplit ?_
    rw [afterOutcome_eq, hverdict, h.cfg_eq]
  case count =>
    rw [publishedAmong_append, h.count, hpublished, hverdict,
      isClaimed_of_underway hbatch h (hrows ▸ List.mem_cons_self), Bool.and_true]
  case since => exact h.since
  case within => exact h.within

/-- What holds of a tick alone is kept by its steps. -/
theorem underway_step (hbatch : Batch base rows) {m : Nat} {v : Relay}
    (h : Underway cfg b plan begun base rows n u t done) (hstep : Alone b u m v) :
    ∃ t' done', Underway cfg b plan begun base rows (n + m) v t' done' := by
  cases hstep with
  | @land t₁ ht fs gs row due ending hf hdue =>
    obtain rfl : t = t₁ := List.singleton_inj.mp (h.ticks.symm.trans ht)
    have hmem : .airborne row due ending ∈ t.flights :=
      hf ▸ List.mem_append_right _ List.mem_cons_self
    refine ⟨{ t with
      flights := fs ++ .landed row (finishSend b u.now row ending u.streams).1 :: gs }, done, ?_⟩
    exact
      { ticks := rfl
        cfg_eq := h.cfg_eq
        rows_eq := h.rows_eq.trans (congrArg (done ++ ·) (Tick.rows_land hf _).symm)
        sends := by
          intro f hmem'
          rcases List.mem_append.mp hmem' with hmem' | hmem'
          · exact h.sends f (hf ▸ List.mem_append_left _ hmem')
          rcases List.mem_cons.mp hmem' with rfl | hmem'
          · exact (verdictOf_finishSend _ _ _ _).trans (h.sends _ hmem).2
          · exact h.sends f (hf ▸ List.mem_append_right _ (List.mem_cons_of_mem _ hmem'))
        landed := by
          intro hdone
          have := nextDue_eq_none_iff.mp (h.landed hdone) _ hmem
          cases this
        table := by cases ending <;> exact h.table
        count := h.count
        since := by cases ending <;> exact h.since
        within := by cases ending <;> exact h.within }
  | slip ht hf htime hp => exact ⟨t, done, { h with }⟩
  | @record t₁ ht hover row result rest hf script hscript published hok =>
    obtain rfl : t = t₁ := List.singleton_inj.mp (h.ticks.symm.trans ht)
    exact ⟨_, _, h.record hbatch hover hf hscript hok⟩
  | @pass t₁ ht later hle hwait =>
    obtain rfl : t = t₁ := List.singleton_inj.mp (h.ticks.symm.trans ht)
    obtain ⟨due, hnext, hlater⟩ := hwait
    -- while a send is under way no row is done
    obtain rfl : done = [] := by
      by_contra hdone
      rw [h.landed hdone] at hnext
      cases hnext
    obtain ⟨row, ending, hmem⟩ := airborne_of_nextDue hnext
    refine ⟨t, [], { h with table := ?_, since := ?_, within := ?_ }⟩
    · have htable := h.table
      rw [judged_nil] at htable ⊢
      exact htable
    · exact Int.le_trans h.since hle
    · exact Int.le_trans hlater (h.sends _ hmem).1

/-- A course of the only tick has more rows done, as their verdicts are. -/
theorem underway_of_course (hbatch : Batch base rows) {m : Nat} {v : Relay}
    (h : Underway cfg b plan begun base rows n u t done) (hcourse : Course b u m v) :
    ∃ t' done', Underway cfg b plan begun base rows (n + m) v t' done' := by
  induction hcourse with
  | refl => exact ⟨t, done, h⟩
  | tail _ hstep ih =>
    obtain ⟨t', done', h'⟩ := ih
    obtain ⟨t'', done'', h''⟩ := underway_step hbatch h' hstep
    exact ⟨t'', done'', Nat.add_assoc n _ _ ▸ h''⟩

end Publisher

end EventRelay
