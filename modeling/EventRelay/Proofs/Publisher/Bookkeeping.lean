import EventRelay.Proofs.Publisher.Effects
import EventRelay.Proofs.Stream.Streams

/-!
# The books of a run

What holds in every run of publishers, whatever their settings.

* `Filed`: rows, the rows of ticks and the entries of streams are the rows that were appended, and
  numbers of rows grow with their identifiers.
* `Punctual`: no tick is older than its time limit.
* `Mirrored`: the journal is what is in the streams.
* `heads_of_reachable`: a claimed row is the first unfinished one of its key.
-/

namespace EventRelay

namespace Publisher

open Relay

variable {pubs : Set PublisherConfig} {b : Broker} {s s' : Relay}

/-! ## Where rows and entries come from -/

/-- The rows of the outbox are rows that were appended, in the order of their numbers. -/
structure Numbered (births : List OutboxRow) (serial : Int → Nat) (table : Outbox) : Prop where
  /-- Identifiers grow along the outbox. -/
  ordered : table.Ordered
  /-- So do numbers. -/
  serials : ∀ r ∈ table, ∀ q ∈ table, r.id < q.id → serial r.id < serial q.id
  /-- A row is the one of its number. -/
  born : ∀ r ∈ table, births[serial r.id]? = some r.asAppended

/-- Rows of one number have one identifier. -/
theorem Numbered.id_eq {births : List OutboxRow} {serial : Int → Nat} {table : Outbox}
    (h : Numbered births serial table) {r q : OutboxRow} (hr : r ∈ table) (hq : q ∈ table)
    (hserial : serial r.id = serial q.id) : r.id = q.id := by
  rcases Int.lt_trichotomy r.id q.id with hlt | heq | hlt
  · exact absurd hserial (Nat.ne_of_lt (h.serials r hr q hq hlt))
  · exact heq
  · exact absurd hserial.symm (Nat.ne_of_lt (h.serials q hq r hr hlt))

/-- Rows keep their numbers in a table that descends from theirs. -/
theorem Numbered.descend {births : List OutboxRow} {serial : Int → Nat} {table table' : Outbox}
    (h : Numbered births serial table) (hdescends : table'.Descends table) :
    Numbered births serial table' where
  ordered := hdescends.ordered h.ordered
  serials r' hr' q' hq' hlt := by
    obtain ⟨r, hr, hrr⟩ := hdescends.each r' hr'
    obtain ⟨q, hq, hqq⟩ := hdescends.each q' hq'
    rw [OutboxRow.id_eq_of_asAppended hrr, OutboxRow.id_eq_of_asAppended hqq] at hlt ⊢
    exact h.serials r hr q hq hlt
  born r' hr' := by
    obtain ⟨r, hr, hrr⟩ := hdescends.each r' hr'
    rw [hrr, OutboxRow.id_eq_of_asAppended hrr]
    exact h.born r hr

/-- The rows that are there, those that ticks have, and the entries delivered for rows are the
rows that were appended. -/
structure Filed (pubs : Set PublisherConfig) (b : Broker) (s : Relay) : Prop where
  /-- The rows that are there are. -/
  numbered : Numbered s.births s.serial s.table
  /-- A tick belongs to one of the publishers. -/
  configured : ∀ t ∈ s.ticks, t.cfg ∈ pubs
  /-- A row of a tick is the one of its number. -/
  carried : ∀ t ∈ s.ticks, ∀ row ∈ t.rows, s.births[t.serial row.id]? = some row.asAppended
  /-- A message is taken in on the partition of its row. -/
  accepting : ∀ t ∈ s.ticks, ∀ row due p, .airborne row due (.accept p) ∈ t.flights →
    0 < t.cfg.sendTimeout ∧ partitionFor row.routingKey b.partitions = .ok p
  /-- An entry delivered for a row is that row's. -/
  posted : ∀ e ∈ s.journal, ∀ i, e.origin = some i → ∃ row p cfg, s.births[i]? = some row ∧
    partitionFor row.routingKey b.partitions = .ok p ∧ e.stream = streamName row.topic p ∧
    e.fields = .ofMessage row.routingKey row.payload [] ∧ cfg ∈ pubs ∧ 0 < cfg.sendTimeout

/-- Rows with greater identifiers have greater numbers. -/
theorem Filed.serial_le (h : Filed pubs b s) {r q : OutboxRow} (hr : r ∈ s.table)
    (hq : q ∈ s.table) (hle : r.id ≤ q.id) : s.serial r.id ≤ s.serial q.id := by
  rcases Int.lt_or_eq_of_le hle with hlt | heq
  · exact Nat.le_of_lt (h.numbered.serials r hr q hq hlt)
  · exact Nat.le_of_eq (congrArg s.serial heq)

/-- In the beginning there is nothing to file. -/
theorem filed_start (desk : Session) : Filed pubs b (start desk) where
  numbered :=
    { ordered := List.Pairwise.nil
      serials := fun _ hr => absurd hr List.not_mem_nil
      born := fun _ hr => absurd hr List.not_mem_nil }
  configured _ ht := absurd ht List.not_mem_nil
  carried _ ht := absurd ht List.not_mem_nil
  accepting _ ht := absurd ht List.not_mem_nil
  posted _ he := absurd he List.not_mem_nil

/-- Where no row is new, the rows and the ticks that are left are those filed before. -/
theorem Filed.descend (h : Filed pubs b s) (hbooks : SameBooks s s')
    (htable : s'.table.Descends s.table) (hticks : Trail s'.ticks s.ticks)
    (hposted : ∀ e ∈ s'.journal, e ∈ s.journal ∨ ∀ i, e.origin = some i →
      ∃ row p cfg, s.births[i]? = some row ∧
        partitionFor row.routingKey b.partitions = .ok p ∧ e.stream = streamName row.topic p ∧
        e.fields = .ofMessage row.routingKey row.payload [] ∧ cfg ∈ pubs ∧ 0 < cfg.sendTimeout) :
    Filed pubs b s' where
  numbered := by
    rw [hbooks.births, hbooks.serial]
    exact h.numbered.descend htable
  configured t' ht' := by
    obtain ⟨t, ht, htrail⟩ := hticks.each t' ht'
    rw [htrail.cfg]
    exact h.configured t ht
  carried t' ht' row hrow := by
    obtain ⟨t, ht, htrail⟩ := hticks.each t' ht'
    rw [hbooks.births, htrail.serial]
    exact h.carried t ht row (htrail.rows.subset hrow)
  accepting t' ht' row due p hf := by
    obtain ⟨t, ht, htrail⟩ := hticks.each t' ht'
    rw [htrail.cfg]
    exact h.accepting t ht row due p (htrail.airborne hf)
  posted e he i hi := by
    rw [hbooks.births]
    rcases hposted e he with hold | hnew
    · exact h.posted e hold i hi
    · exact hnew i hi

/-- An appended row gets the next number. -/
theorem Numbered.append (h : Numbered s.births s.serial s.table) {row : OutboxRow}
    (ha : Appended s s' row) : Numbered s'.births s'.serial s'.table := by
  have hserial : ∀ r ∈ s.table, s'.serial r.id = s.serial r.id := fun r hr => ha.serial_of_mem hr
  refine ⟨?_, ?_, ?_⟩
  · unfold Outbox.Ordered
    rw [ha.table, List.map_append, List.pairwise_append]
    refine ⟨h.ordered, List.pairwise_singleton _ _, fun i hi j hj => ?_⟩
    obtain ⟨r, hr, rfl⟩ := List.mem_map.mp hi
    rw [List.map_singleton, List.mem_singleton] at hj
    rw [hj]
    exact ha.above r hr
  · intro r hr q hq hlt
    rcases ha.mem_table hr with hr | rfl
    · rw [hserial r hr]
      rcases ha.mem_table hq with hq | rfl
      · rw [hserial q hq]
        exact h.serials r hr q hq hlt
      · rw [ha.serial_self]
        exact (List.getElem?_eq_some_iff.mp (h.born r hr)).1
    · rcases ha.mem_table hq with hq | rfl
      · exact absurd (ha.above q hq) (Int.not_lt.mpr (Int.le_of_lt hlt))
      · exact absurd hlt (Int.lt_irrefl _)
  · intro r hr
    rw [ha.births]
    rcases ha.mem_table hr with hr | rfl
    · rw [hserial r hr]
      exact getElem?_append_of_some (h.born r hr) [row]
    · rw [ha.serial_self, ha.fresh]
      exact List.getElem?_concat_length

/-- The books are right after a row was appended. -/
theorem Filed.append (h : Filed pubs b s) {row : OutboxRow} (ha : Appended s s' row) :
    Filed pubs b s' where
  numbered := h.numbered.append ha
  configured := by
    rw [ha.ticks]
    exact h.configured
  carried t ht r hr := by
    rw [ha.ticks] at ht
    rw [ha.births]
    exact getElem?_append_of_some (h.carried t ht r hr) [row]
  accepting := by
    rw [ha.ticks]
    exact h.accepting
  posted e he i hi := by
    rw [ha.journal] at he
    obtain ⟨r, p, cfg, hborn, hrest⟩ := h.posted e he i hi
    refine ⟨r, p, cfg, ?_, hrest⟩
    rw [ha.births]
    exact getElem?_append_of_some hborn [row]

/-- The books are right after a batch was claimed. -/
theorem Filed.claim (h : Filed pubs b s) {cfg : PublisherConfig} {olderThan : Instant} {t : Tick}
    (hcfg : cfg ∈ pubs) (hc : Claimed b cfg olderThan s s' t) : Filed pubs b s' := by
  have hreleased := Outbox.releaseStale_descends s.table olderThan cfg.maxRetries
  have hdescends : s'.table.Descends s.table := by
    rw [hc.table]
    exact (Outbox.claim_descends _ _ _).trans hreleased
  refine
    { numbered := by
        rw [hc.births, hc.serial]
        exact h.numbered.descend hdescends
      configured := ?_
      carried := ?_
      accepting := ?_
      posted := by
        rw [hc.births, hc.journal]
        exact h.posted }
  · intro u hu
    rcases hc.mem_ticks hu with hu | rfl
    · exact h.configured u hu
    · rw [hc.cfg_eq]
      exact hcfg
  · intro u hu row hrow
    rw [hc.births]
    rcases hc.mem_ticks hu with hu | rfl
    · exact h.carried u hu row hrow
    · rw [hc.rows, Outbox.claim_fst] at hrow
      obtain ⟨q, hq, rfl⟩ := List.mem_map.mp hrow
      obtain ⟨r, hr, hqr⟩ := hreleased.each q (Outbox.mem_of_mem_chosen hq).1
      have hsame : (Outbox.claimed s.now q).asAppended = r.asAppended := hqr
      rw [hc.serial_eq, hsame, OutboxRow.id_eq_of_asAppended hsame]
      exact h.numbered.born r hr
  · intro u hu row due p hf
    rcases hc.mem_ticks hu with hu | rfl
    · exact h.accepting u hu row due p hf
    · obtain ⟨row', due', ending', heq, htimely⟩ := hc.flights _ hf
      cases heq
      rw [hc.cfg_eq]
      exact htimely.2 p rfl

/-- The books are right after a message was delivered. -/
theorem Filed.deliver (h : Filed pubs b s) {t : Tick} {row : OutboxRow} {partition : Int}
    (hd : Delivered b s s' t row partition) : Filed pubs b s' := by
  obtain ⟨due, ending, hf, hhow⟩ := hd.airborne
  have hin : 0 < t.cfg.sendTimeout ∧
      partitionFor row.routingKey b.partitions = .ok partition := by
    rcases hhow with rfl | hslip
    · exact h.accepting t hd.tick row due partition hf
    · exact hslip
  refine h.descend hd.toSameBooks ?_ hd.ticks fun e he => ?_
  · rw [hd.table]
    exact Outbox.descends_of_sublist (List.Sublist.refl _)
  · rw [hd.journal] at he
    rcases List.mem_append.mp he with he | he
    · exact .inl he
    · refine .inr fun i hi => ?_
      rw [List.mem_singleton.mp he] at hi ⊢
      cases hi
      exact ⟨row.asAppended, partition, t.cfg, h.carried t hd.tick row (Tick.mem_rows hf), hin.2,
        rfl, rfl, h.configured t hd.tick, hin.1⟩

/-- The books are right after an outcome was recorded. -/
theorem Filed.record (h : Filed pubs b s) {t : Tick} {row : OutboxRow}
    {result : Except Failure Receipt} (hr : Recorded s s' t row result) : Filed pubs b s' := by
  refine h.descend hr.toSameBooks ?_ hr.trail fun e he => .inl (hr.journal ▸ he)
  rw [hr.table]
  exact Outbox.changeClaimed_descends _ _ (asAppended_afterOutcome t.cfg s.now row result)

/-- The books are right after a step that does not concern the rows. -/
theorem Filed.quiet (h : Filed pubs b s) (hq : Quiet s s') : Filed pubs b s' := by
  obtain ⟨others, hjournal, hothers⟩ := hq.journal
  refine h.descend hq.toSameBooks (Outbox.descends_of_sublist hq.table) hq.ticks fun e he => ?_
  rw [hjournal] at he
  rcases List.mem_append.mp he with he | he
  · exact .inl he
  · refine .inr fun i hi => ?_
    rw [hothers e he] at hi
    cases hi

/-- Every step keeps the books right. -/
theorem filed_step (h : Filed pubs b s) (hstep : Step pubs b s s') : Filed pubs b s' := by
  cases effect_of_step hstep with
  | appended row ha => exact h.append ha
  | claimed cfg hcfg olderThan t hc => exact h.claim hcfg hc
  | delivered t row partition hd => exact h.deliver hd
  | recorded t row result hr => exact h.record hr
  | quiet hq => exact h.quiet hq

/-- The books are right in every state of a run. -/
theorem filed_of_reachable (h : Reachable pubs b s) : Filed pubs b s := by
  induction h with
  | start desk => exact filed_start desk
  | step _ hstep ih => exact filed_step ih hstep

/-! ## One row of a key at a time -/

/-- After every step claimed rows are the first unfinished ones of their keys. -/
theorem heads_step (hfiled : Filed pubs b s) (h : s.table.Heads) (hstep : Step pubs b s s') :
    s'.table.Heads := by
  cases effect_of_step hstep with
  | appended row ha =>
    rw [ha.table]
    exact h.append ha.above (congrArg OutboxRow.status ha.fresh).symm
  | claimed cfg hcfg olderThan t hc =>
    have hreleased := Outbox.releaseStale_descends s.table olderThan cfg.maxRetries
    rw [hc.table]
    refine Outbox.Heads.claim ?_ (hreleased.ordered hfiled.numbered.ordered).distinct
    rw [Outbox.releaseStale_snd]
    exact h.map (Outbox.calm_afterRelease olderThan cfg.maxRetries)
  | delivered t row partition hd =>
    rw [hd.table]
    exact h
  | recorded t row result hr =>
    rw [hr.table, Outbox.changeClaimed_snd]
    exact h.map (Outbox.calm_change row.id (asAppended_afterOutcome t.cfg s.now row result)
      (status_afterOutcome t.cfg s.now row result))
  | quiet hq => exact h.sublist hq.table

/-- In every run a claimed row is the first unfinished one of its key. -/
theorem heads_of_reachable (h : Reachable pubs b s) : s.table.Heads := by
  induction h with
  | start desk => exact fun r hr => absurd hr List.not_mem_nil
  | step hreach hstep ih => exact heads_step (filed_of_reachable hreach) ih hstep

/-! ## The age of ticks -/

/-- A tick ends its sends in time: it is not older than its time limit, and neither will it be
when the last of its sends ends. -/
structure Tick.OnTime (now : Instant) (t : Tick) : Prop where
  /-- It did not begin later than now. -/
  begun : t.claimedAt ≤ now
  /-- It is not older than its time limit. -/
  age : now ≤ t.claimedAt + max 0 t.cfg.sendTimeout
  /-- Neither will it be when a send ends. -/
  dues : ∀ row due ending, .airborne row due ending ∈ t.flights →
    due ≤ t.claimedAt + max 0 t.cfg.sendTimeout

/-- A tick that is on time still is so when sends are over and outcomes recorded. -/
theorem Tick.OnTime.trail {now : Instant} {t t' : Tick} (h : t.OnTime now) (htrail : t'.Trails t) :
    t'.OnTime now where
  begun := htrail.claimedAt ▸ h.begun
  age := by
    rw [htrail.claimedAt, htrail.cfg]
    exact h.age
  dues row due ending hf := by
    rw [htrail.claimedAt, htrail.cfg]
    exact h.dues row due ending (htrail.airborne hf)

/-- Time passes only as far as a send that is under way. -/
theorem Tick.OnTime.wait {now later : Instant} {t : Tick} (h : t.OnTime now) (hle : now ≤ later)
    (hwait : t.waitsUntil later) : t.OnTime later where
  begun := Int.le_trans h.begun hle
  age := by
    obtain ⟨due, hnext, hlater⟩ := hwait
    obtain ⟨row, ending, hf⟩ := airborne_of_nextDue hnext
    exact Int.le_trans hlater (h.dues row due ending hf)
  dues := h.dues

/-- All ticks are on time. -/
def Punctual (s : Relay) : Prop := ∀ t ∈ s.ticks, t.OnTime s.now

/-- Ticks are on time where they are former ones at the same time. -/
theorem Punctual.trail (h : Punctual s) (hticks : Trail s'.ticks s.ticks)
    (hnow : s'.now = s.now) : Punctual s' := by
  intro t' ht'
  obtain ⟨t, ht, htrail⟩ := hticks.each t' ht'
  rw [hnow]
  exact (h t ht).trail htrail

/-- Every step keeps ticks on time. -/
theorem punctual_step (h : Punctual s) (hstep : Step pubs b s s') : Punctual s' := by
  cases effect_of_step hstep with
  | appended row ha => exact h.trail (ha.ticks ▸ Trail.refl _) ha.now
  | claimed cfg hcfg olderThan t hc =>
    intro u hu
    rw [hc.now]
    rcases hc.mem_ticks hu with hu | rfl
    · exact h u hu
    refine ⟨Int.le_of_eq hc.claimedAt, ?_, fun row due ending hf => ?_⟩
    · rw [hc.claimedAt]
      unfold Instant Span at *
      omega
    · obtain ⟨row', due', ending', heq, htimely⟩ := hc.flights _ hf
      cases heq
      rw [hc.claimedAt, hc.cfg_eq]
      exact htimely.1
  | delivered t row partition hd => exact h.trail hd.ticks hd.now
  | recorded t row result hr => exact h.trail hr.trail hr.now
  | quiet hq =>
    rcases hq.waits with hnow | hwait
    · exact h.trail hq.ticks hnow
    · intro t' ht'
      obtain ⟨t, ht, htrail⟩ := hq.ticks.each t' ht'
      exact ((h t ht).wait hq.now (hwait t ht)).trail htrail

/-- In every run no tick is older than its time limit. -/
theorem punctual_of_reachable (h : Reachable pubs b s) : Punctual s := by
  induction h with
  | start desk => exact fun t ht => absurd ht List.not_mem_nil
  | step _ hstep ih => exact punctual_step ih hstep

/-! ## The journal and the streams -/

/-- The journal is what is in the streams. -/
def Mirrored (s : Relay) : Prop := ∀ stream,
  s.streams.contents stream = (s.journal.filter (·.stream = stream)).map (·.fields)

/-- An entry that goes into the journal and into its stream keeps the two alike. -/
theorem Mirrored.post (h : Mirrored s) (e : Posting) (maxlen : Option Int) (approximate : Bool)
    (hstreams : s'.streams = (s.streams.append e.stream s.now e.fields maxlen approximate).2)
    (hjournal : s'.journal = s.journal ++ [e]) : Mirrored s' := by
  intro stream
  rw [hstreams, hjournal, List.filter_append, List.map_append, ← h stream]
  by_cases hname : e.stream = stream
  · rw [← hname, Streams.contents_append]
    simp
  · rw [Streams.contents_append_of_ne _ _ _ _ _ _ hname]
    simp [hname]

/-- After every step the journal is what is in the streams. -/
theorem mirrored_step (h : Mirrored s) (hstep : Step pubs b s s') : Mirrored s' := by
  cases hstep with
  | append eventType topic payload key createdAt => exact h
  | @claim cfg hcfg script hscript sends hsends =>
    unfold Relay.claim Relay.transact
    rcases (claimBatch cfg).run { s.desk with script } with ⟨_ | rows, desk⟩
    · exact h
    · exact h
  | @land before after t ht fs gs row due ending hf hdue =>
    cases ending with
    | accept partition => exact h.post (posting t row partition) b.maxlen true rfl rfl
    | vouch receipt => exact h
    | fail cause => exact h
  | @slip t ht row due ending hf htime partition hp =>
    exact h.post (posting t row partition) b.maxlen true rfl rfl
  | record ht hover hf hscript => exact h
  | leave ht => exact h
  | clean hcfg hscript => exact h
  | other stream fields maxlen approximate =>
    exact h.post ⟨stream, fields, none⟩ maxlen approximate rfl rfl
  | pass hle hwait => exact h

/-- In every run the journal is what is in the streams. -/
theorem mirrored_of_reachable (h : Reachable pubs b s) : Mirrored s := by
  induction h with
  | start desk => exact fun stream => rfl
  | step _ hstep ih => exact mirrored_step ih hstep

/-- An entry that was appended is in its stream. -/
theorem mem_contents_of_mem_journal (h : Reachable pubs b s) {e : Posting} (he : e ∈ s.journal) :
    e.fields ∈ s.streams.contents e.stream := by
  rw [mirrored_of_reachable h e.stream]
  exact List.mem_map_of_mem (List.mem_filter.mpr ⟨he, decide_eq_true rfl⟩)

end Publisher

end EventRelay
