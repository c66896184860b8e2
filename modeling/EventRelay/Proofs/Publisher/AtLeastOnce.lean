import EventRelay.Proofs.Publisher.Lifecycle
import Mathlib.Data.Set.Insert

/-!
# What is published was sent

A row is published only when the broker has taken its message in, and it leaves the outbox only
when a cleanup finds that it was published long enough ago.  Claims may be taken back while their
sends are under way, and ticks may die at any time.

A tick records an outcome in the row of an identifier, and the database gives identifiers out
again.  It is the retention that makes this safe: a row that a tick sends was claimed when the tick
began, or later, so it cannot have been published and removed before the sends of the tick end,
and the identifier still names the same row.

* `Receipted`: who was told that a message was taken in was told the truth.
* `kept_or_swept`: a step leaves a row what it is, or is a cleanup that removes it.
* `Tracked`: the rows of a tick are still there under their identifiers.
* `at_least_once`: the main statement.
-/

namespace EventRelay

namespace Relay

open Publisher

/-- Some entry was appended for the row of this number. -/
def Posted (s : Relay) (i : Nat) : Prop := ∃ e ∈ s.journal, e.origin = some i

/-- The broker took the message of the row of this number in: its stream, the one of the topic of
the row on the partition of its key, has an entry with its key and its content. -/
def HasSent (s : Relay) (b : Broker) (i : Nat) (row : OutboxRow) : Prop :=
  ∃ e ∈ s.journal, e.origin = some i ∧
    (∃ p, partitionFor row.routingKey b.partitions = .ok p ∧ e.stream = streamName row.topic p) ∧
    e.fields = .ofMessage row.routingKey row.payload [] ∧ e.fields ∈ s.streams.contents e.stream

end Relay

namespace Publisher

open Relay

variable {pubs : Set PublisherConfig} {b : Broker} {s s' : Relay}

/-! ## Receipts -/

/-- A send that is over with a receipt has an entry, and a send that is under way will not get one
without. -/
def Flight.Receipted (journal : List Posting) (serial : Int → Nat) : Flight → Prop
  | .airborne _ _ (.vouch _) => False
  | .airborne _ _ (.accept _) => True
  | .airborne _ _ (.fail _) => True
  | .landed row (.ok _) => ∃ e ∈ journal, e.origin = some (serial row.id)
  | .landed _ (.error _) => True

/-- What a send was told stays true while the journal grows. -/
theorem Flight.Receipted.grow {journal journal' : List Posting} {serial : Int → Nat} {f : Flight}
    (h : f.Receipted journal serial) (hgrow : ∀ e ∈ journal, e ∈ journal') :
    f.Receipted journal' serial := by
  cases f with
  | airborne row due ending => cases ending <;> exact h
  | landed row result =>
    cases result with
    | error cause => trivial
    | ok receipt =>
      obtain ⟨e, he, horigin⟩ := h
      exact ⟨e, hgrow e he, horigin⟩

/-- Who was told that a message was taken in was told the truth. -/
def Receipted (s : Relay) : Prop := ∀ t ∈ s.ticks, ∀ f ∈ t.flights, f.Receipted s.journal t.serial

section launches

variable (cfg : PublisherConfig) (now : Instant) (after : Span → Instant)
  (journal : List Posting) (serial : Int → Nat)

/-- A send that begins has not been told anything yet. -/
theorem receipted_launch (row : OutboxRow) {sends : List (Outcome String)}
    (hsends : FairSends sends) :
    (launch cfg b now after row sends).1.Receipted journal serial ∧
      FairSends (launch cfg b now after row sends).2 := by
  unfold launch
  by_cases htime : cfg.sendTimeout ≤ 0
  · rw [if_pos htime]
    exact ⟨trivial, hsends⟩
  rw [if_neg htime]
  rcases partitionFor row.routingKey b.partitions with e | p
  · exact ⟨trivial, hsends⟩
  have hnext : (Outcome.next sends).1.turn.IsHonest ∧ FairSends (Outcome.next sends).2 := by
    cases sends with
    | nil => exact ⟨fun _ => nofun, hsends⟩
    | cons o rest =>
      exact ⟨hsends o List.mem_cons_self, fun u hu => hsends u (List.mem_cons_of_mem o hu)⟩
  revert hnext
  rcases Outcome.next sends with ⟨⟨delay, turn⟩, rest⟩
  rintro ⟨hturn, hrest⟩
  dsimp only
  by_cases hlate : cfg.sendTimeout ≤ delay
  · rw [if_pos hlate]
    exact ⟨trivial, hrest⟩
  · rw [if_neg hlate]
    refine ⟨?_, hrest⟩
    cases turn with
    | through => trivial
    | raise e => trivial
    | answer offset => exact hturn offset rfl

/-- No send of a batch has a receipt to give without the broker. -/
theorem receipted_launchAll (rows : List OutboxRow) {sends : List (Outcome String)}
    (hsends : FairSends sends) :
    ∀ f ∈ (launchAll cfg b now after rows sends).1, f.Receipted journal serial := by
  induction rows generalizing sends with
  | nil => exact fun f hf => absurd hf List.not_mem_nil
  | cons row rows ih =>
    obtain ⟨hfirst, hrest⟩ := receipted_launch (b := b) cfg now after journal serial row hsends
    unfold launchAll
    intro f hf
    rcases List.mem_cons.mp hf with rfl | hf
    · exact hfirst
    · exact ih hrest f hf

end launches

/-- Receipts stay true when entries are added, and flights that were there before need no proof. -/
theorem Receipted.advance (h : Receipted s) (hjournal : ∀ e ∈ s.journal, e ∈ s'.journal)
    (hflights : ∀ t' ∈ s'.ticks, ∀ f ∈ t'.flights,
      (∃ t ∈ s.ticks, t'.serial = t.serial ∧ f ∈ t.flights) ∨ f.Receipted s'.journal t'.serial) :
    Receipted s' := by
  intro t' ht' f hf
  rcases hflights t' ht' f hf with ⟨t, ht, hserial, hmem⟩ | hnew
  · rw [hserial]
    exact (h t ht f hmem).grow hjournal
  · exact hnew

/-- A send that is over gives its receipt for the entry that it has left. -/
theorem Receipted.land (h : Receipted s) {before after : List Tick} {t : Tick}
    (ht : s.ticks = before ++ t :: after) {fs gs : List Flight} {row : OutboxRow} {due : Instant}
    {ending : Ending} (hf : t.flights = fs ++ .airborne row due ending :: gs) :
    Receipted ((s.deliverIf b t row ending).withTicks (before ++
      { t with
        flights := fs ++ .landed row (finishSend b s.now row ending s.streams).1 :: gs } ::
      after)) := by
  have hmem := mem_of_split ht
  have hjournal : ∀ e ∈ s.journal, e ∈ (s.deliverIf b t row ending).journal := by
    intro e he
    cases ending with
    | accept p => exact List.mem_append_left _ he
    | vouch receipt => exact he
    | fail cause => exact he
  refine h.advance hjournal fun u hu f hfu => ?_
  rcases mem_of_mem_replace ht hu with hu | rfl
  · exact .inl ⟨u, hu, rfl, hfu⟩
  · rcases mem_of_mem_replace hf hfu with hfu | rfl
    · exact .inl ⟨t, hmem, rfl, hfu⟩
    · refine .inr ?_
      cases ending with
      | accept p => exact ⟨posting t row p, List.mem_append_right _ List.mem_cons_self, rfl⟩
      | vouch receipt => exact (h t hmem _ (mem_of_split hf)).elim
      | fail cause => trivial

/-- A step tells nobody of a receipt without an entry. -/
theorem receipted_step (h : Receipted s) (hstep : Step pubs b s s') : Receipted s' := by
  cases hstep with
  | append eventType topic payload key createdAt => exact h
  | @claim cfg hcfg script hscript sends hsends =>
    unfold Relay.claim Relay.transact
    rcases (claimBatch cfg).run { s.desk with script } with ⟨_ | rows, desk⟩
    · exact h
    · refine h.advance (fun e he => he) fun u hu f hf => ?_
      rcases List.mem_append.mp hu with hu | hu
      · exact .inl ⟨u, hu, rfl, hf⟩
      · rw [List.mem_singleton.mp hu] at hf ⊢
        exact .inr (receipted_launchAll cfg s.now _ s.journal s.serial rows hsends f hf)
  | land ht hf hdue => exact h.land ht hf
  | slip ht hf htime hp =>
    exact h.advance (fun e he => List.mem_append_left _ he) fun u hu f hf => .inl ⟨u, hu, rfl, hf⟩
  | @record before after t ht hover row result rest hf script hscript =>
    refine h.advance (fun e he => he) fun u hu f hfu => .inl ?_
    -- the tick dies with a transaction that fails, else it goes on with one flight less
    have hcases : u ∈ s.ticks ∨ u = { t with flights := rest } := by
      rcases hpublished : (s.transact script (reconcile t.cfg row result)).1 with e | published
      · simp only [withTicks, hpublished, List.append_nil] at hu
        exact .inl (mem_of_mem_remove ht hu)
      · simp only [withTicks, hpublished, List.append_assoc, List.singleton_append] at hu
        exact mem_of_mem_replace ht hu
    rcases hcases with hu | rfl
    · exact ⟨u, hu, rfl, hfu⟩
    · refine ⟨t, mem_of_split ht, rfl, ?_⟩
      rw [hf]
      exact List.mem_cons_of_mem _ hfu
  | leave ht =>
    exact h.advance (fun e he => he) fun u hu f hf => .inl ⟨u, mem_of_mem_remove ht hu, rfl, hf⟩
  | clean hcfg hscript => exact h
  | other stream fields maxlen approximate =>
    exact h.advance (fun e he => List.mem_append_left _ he) fun u hu f hf => .inl ⟨u, hu, rfl, hf⟩
  | pass hle hwait => exact h

/-- In every state of a run who was told of a receipt was told the truth. -/
theorem receipted_of_reachable (h : Reachable pubs b s) : Receipted s := by
  induction h with
  | start desk => exact fun t ht => absurd ht List.not_mem_nil
  | step _ hstep ih => exact receipted_step ih hstep

/-- A step leaves a row what it is, or is a cleanup that removes it. -/
theorem kept_or_swept (hfiled : Filed pubs b s) (hstep : Step pubs b s s') {r : OutboxRow}
    (hr : r ∈ s.table) : (∃ r' ∈ s'.table, Continues s.now r' r) ∨ Swept pubs s s' r := by
  cases turnover_of_step hfiled hstep with
  | grown row ha =>
    refine .inl ⟨r, ?_, rfl, .inl rfl⟩
    rw [ha.table]
    exact List.mem_append_left _ hr
  | changed g htable hbecomes hcontinues =>
    refine .inl ⟨g r, ?_, hcontinues r⟩
    rw [htable]
    exact List.mem_map_of_mem hr
  | shrunk htable hgone =>
    exact (hgone r hr).imp_left fun hthere => ⟨r, hthere, rfl, .inl rfl⟩

/-! ## Where no send takes longer than published rows are kept -/

/-- No send of a publisher may take longer than published rows are kept by any. -/
def Outlasting (pubs : Set PublisherConfig) : Prop :=
  ∀ p ∈ pubs, ∀ q ∈ pubs, max 0 p.sendTimeout ≤ q.retention.rounded

/-- The rows of a tick, less those whose outcomes are recorded, are in the outbox under their
identifiers, and they were claimed or published when the tick began or later. -/
def Tracked (s : Relay) : Prop :=
  ∀ t ∈ s.ticks, ∀ row ∈ t.rows, t.serial row.id = s.serial row.id ∧
    ∃ r ∈ s.table, r.id = row.id ∧ ∃ since, r.processedAt = some since ∧ t.claimedAt ≤ since

/-- A row that was claimed or published since a tick began is not removed before its end. -/
theorem not_swept (houtlasting : Outlasting pubs) {t : Tick} (hcfg : t.cfg ∈ pubs)
    (htime : t.OnTime s.now) {r : OutboxRow} {since : Instant} (hsince : r.processedAt = some since)
    (hle : t.claimedAt ≤ since) : ¬ Swept pubs s s' r := by
  rintro ⟨cfg, hcfg', -, -, since', hsince', hlt⟩
  rw [hsince] at hsince'
  cases hsince'
  have hage := htime.age
  have hkept := houtlasting t.cfg hcfg cfg hcfg'
  unfold Instant Span at *
  omega

/-- A step keeps the rows of ticks in the outbox where no send outlasts the retention. -/
theorem tracked_step (houtlasting : Outlasting pubs) (hfiled : Filed pubs b s)
    (hpunctual : Punctual s) (h : Tracked s) (hstep : Step pubs b s s') : Tracked s' := by
  intro t' ht' row hrow
  rcases tick_of_step hstep ht' with ⟨t, ht, htrail⟩ | ⟨cfg, hcfg, olderThan, hc⟩
  · obtain ⟨hserial, r, hr, hid, since, hsince, hle⟩ := h t ht row (htrail.rows.subset hrow)
    rcases kept_or_swept hfiled hstep hr with ⟨r', hr', hsame, hat⟩ | hswept
    · have hserial' := serial_of_step hstep hr
      rw [hid] at hserial'
      rw [htrail.serial, htrail.claimedAt, hserial']
      refine ⟨hserial, r', hr', (OutboxRow.id_eq_of_asAppended hsame).trans hid, ?_⟩
      rcases hat with hat | hat
      · exact ⟨since, hat.trans hsince, hle⟩
      · exact ⟨s.now, hat, (hpunctual t ht).begun⟩
    · exact absurd hswept (not_swept houtlasting (hfiled.configured t ht) (hpunctual t ht) hsince hle)
  · rw [hc.serial_eq, hc.serial, hc.claimedAt]
    refine ⟨rfl, ?_⟩
    rw [hc.rows, Outbox.claim_fst] at hrow
    obtain ⟨q, hq, rfl⟩ := List.mem_map.mp hrow
    have hordered := (Outbox.releaseStale_descends s.table olderThan cfg.maxRetries).ordered
      hfiled.numbered.ordered
    refine ⟨Outbox.claimed s.now q, ?_, rfl, s.now, rfl, Int.le_refl _⟩
    rw [hc.table, Outbox.claim_snd hordered.distinct]
    exact List.mem_map.mpr ⟨q, (Outbox.mem_of_mem_chosen hq).1, if_pos hq⟩

/-- In every run of publishers that keep published rows long enough, ticks have their rows. -/
theorem tracked_of_reachable (houtlasting : Outlasting pubs) (h : Reachable pubs b s) :
    Tracked s := by
  induction h with
  | start desk => exact fun t ht => absurd ht List.not_mem_nil
  | step hreach hstep ih =>
    exact tracked_step houtlasting (filed_of_reachable hreach) (punctual_of_reachable hreach) ih
      hstep

/-! ## Published rows -/

/-- An entry stays in the journal. -/
theorem posted_step {i : Nat} (h : s.Posted i) (hstep : Step pubs b s s') : s'.Posted i := by
  obtain ⟨e, he, horigin⟩ := h
  obtain ⟨new, hjournal⟩ := journal_of_step hstep
  refine ⟨e, ?_, horigin⟩
  rw [hjournal]
  exact List.mem_append_left _ he

/-- A row that a tick sent with success has an entry, and its identifier names it still. -/
theorem posted_of_landed (hreceipted : Receipted s) (htracked : Tracked s) {t : Tick}
    {row : OutboxRow} {receipt : Receipt} (ht : t ∈ s.ticks)
    (hf : .landed row (.ok receipt) ∈ t.flights) : s.Posted (s.serial row.id) := by
  have hrow : row ∈ t.rows := List.mem_map_of_mem (f := Flight.row) hf
  obtain ⟨hserial, -⟩ := htracked t ht row hrow
  obtain ⟨e, he, horigin⟩ := hreceipted t ht _ hf
  exact ⟨e, he, horigin.trans (congrArg some hserial)⟩

/-- A row that is published after a step was so before, or had an entry before. -/
theorem published_of_step (hfiled : Filed pubs b s) (hreceipted : Receipted s)
    (htracked : Tracked s) (hstep : Step pubs b s s') {r : OutboxRow} (hr : r ∈ s'.table)
    (hstatus : r.status = .published) : r ∈ s.table ∨ s.Posted (s'.serial r.id) := by
  cases effect_of_step hstep with
  | appended row ha =>
    rcases ha.mem_table hr with hr | rfl
    · exact .inl hr
    · rw [← ha.fresh] at hstatus
      cases hstatus
  | claimed cfg hcfg olderThan t hc =>
    rw [hc.table, Outbox.claim_releaseStale_snd hfiled.numbered.ordered] at hr
    obtain ⟨q, hq, rfl⟩ := List.mem_map.mp hr
    rw [Outbox.afterClaim_of_published hstatus]
    exact .inl hq
  | delivered t row partition hd =>
    rw [hd.table] at hr
    exact .inl hr
  | recorded t row result hrec =>
    obtain ⟨ht, -⟩ := hrec.mem
    obtain ⟨before, after, rest, -, hf, -⟩ := hrec.ticks
    rw [hrec.table, Outbox.changeClaimed_snd] at hr
    obtain ⟨q, hq, rfl⟩ := List.mem_map.mp hr
    by_cases hhit : Outbox.IsHit row.id q
    · rw [if_pos hhit] at hstatus ⊢
      cases result with
      | error cause =>
        unfold afterOutcome at hstatus
        dsimp only at hstatus
        split at hstatus <;> cases hstatus
      | ok receipt =>
        have hmem : Flight.landed row (.ok receipt) ∈ t.flights := by
          rw [hf]
          exact List.mem_cons_self
        have hposted := posted_of_landed hreceipted htracked ht hmem
        rw [← hhit.1, ← hrec.serial] at hposted
        exact .inr hposted
    · rw [if_neg hhit]
      exact .inl hq
  | quiet hq => exact .inl (hq.table.subset hr)

/-- Published rows have entries. -/
theorem posted_of_reachable (houtlasting : Outlasting pubs) (h : Reachable pubs b s) :
    ∀ r ∈ s.table, r.status = .published → s.Posted (s.serial r.id) := by
  induction h with
  | start desk => exact fun r hr => absurd hr List.not_mem_nil
  | step hreach hstep ih =>
    intro r hr hstatus
    rcases published_of_step (filed_of_reachable hreach) (receipted_of_reachable hreach)
      (tracked_of_reachable houtlasting hreach) hstep hr hstatus with hold | hposted
    · rw [serial_of_step hstep hold]
      exact posted_step (ih r hold hstatus) hstep
    · exact posted_step hposted hstep

/-- A row that is published after a step had an entry before it. -/
theorem posted_before (houtlasting : Outlasting pubs) (h : Reachable pubs b s)
    (hstep : Step pubs b s s') {r : OutboxRow} (hr : r ∈ s'.table)
    (hstatus : r.status = .published) : s.Posted (s'.serial r.id) := by
  rcases published_of_step (filed_of_reachable h) (receipted_of_reachable h)
    (tracked_of_reachable houtlasting h) hstep hr hstatus with hold | hposted
  · rw [serial_of_step hstep hold]
    exact posted_of_reachable houtlasting h r hold hstatus
  · exact hposted

/-- A row that was ever appended is there, or has an entry. -/
def Accounted (s s' : Relay) : Prop :=
  ∀ i row, s'.births[i]? = some row →
    (∃ r ∈ s'.table, s'.serial r.id = i ∧ r.asAppended = row) ∨ s.Posted i

/-- A row that goes with a step had an entry before it. -/
theorem accounted_step (hfiled : Filed pubs b s)
    (hposted : ∀ r ∈ s.table, r.status = .published → s.Posted (s.serial r.id))
    (h : Accounted s s) (hstep : Step pubs b s s') : Accounted s s' := by
  have hold : ∀ i row, s.births[i]? = some row →
      (∃ r ∈ s'.table, s'.serial r.id = i ∧ r.asAppended = row) ∨ s.Posted i := by
    intro i row hrow
    rcases h i row hrow with ⟨r, hr, hserial, hsame⟩ | hsent
    · rcases kept_or_swept hfiled hstep hr with ⟨r', hr', heq, -⟩ | ⟨-, -, -, hstatus, -⟩
      · refine .inl ⟨r', hr', ?_, heq.trans hsame⟩
        rw [OutboxRow.id_eq_of_asAppended heq]
        exact (serial_of_step hstep hr).trans hserial
      · rw [← hserial]
        exact .inr (hposted r hr hstatus)
    · exact .inr hsent
  intro i row hrow
  cases effect_of_step hstep with
  | appended new ha =>
    rw [ha.births] at hrow
    by_cases hi : i < s.births.length
    · rw [List.getElem?_append_left hi] at hrow
      exact hold i row hrow
    · -- the new row
      obtain ⟨hle, -⟩ := List.getElem?_eq_some_iff.mp hrow
      rw [List.length_append, List.length_singleton] at hle
      have hlast : i = s.births.length := by omega
      rw [hlast, List.getElem?_concat_length] at hrow
      cases hrow
      refine .inl ⟨row, ?_, ha.serial_self.trans hlast.symm, ha.fresh⟩
      rw [ha.table]
      exact List.mem_append_right _ (List.mem_singleton_self row)
  | claimed cfg hcfg olderThan t hc => exact hold i row (hc.births ▸ hrow)
  | delivered t r partition hd => exact hold i row (hd.births ▸ hrow)
  | recorded t r result hrec => exact hold i row (hrec.births ▸ hrow)
  | quiet hq => exact hold i row (hq.births ▸ hrow)

/-- In every run of publishers that keep published rows long enough, every row that was ever
appended is there, or has an entry. -/
theorem accounted_of_reachable (houtlasting : Outlasting pubs) (h : Reachable pubs b s) :
    Accounted s s := by
  induction h with
  | start desk => exact fun i row hrow => absurd hrow (by simp [start])
  | step hreach hstep ih =>
    intro i row hrow
    have hposted := posted_of_reachable houtlasting hreach
    rcases accounted_step (filed_of_reachable hreach) hposted ih hstep i row hrow with hthere | hsent
    · exact .inl hthere
    · exact .inr (posted_step hsent hstep)

/-! ## At least once -/

/-- An entry that was appended for a row has the stream and the fields of its message. -/
theorem exists_hasSent (h : Reachable pubs b s) {i : Nat} (hposted : s.Posted i) :
    ∃ row, s.births[i]? = some row ∧ s.HasSent b i row := by
  obtain ⟨e, he, horigin⟩ := hposted
  obtain ⟨row, p, cfg, hrow, hp, hstream, hfields, -⟩ :=
    (filed_of_reachable h).posted e he i horigin
  exact ⟨row, hrow, e, he, horigin, ⟨p, hp, hstream⟩, hfields, mem_contents_of_mem_journal h he⟩

/-- The row of an entry is the one that a later state has under the number. -/
theorem hasSent_of_posted (h : Reachable pubs b s) (hstep : Step pubs b s s') {i : Nat}
    {row : OutboxRow} (hposted : s.Posted i) (hrow : s'.births[i]? = some row) :
    s.HasSent b i row := by
  obtain ⟨row', hrow', hsent⟩ := exists_hasSent h hposted
  obtain ⟨new, hbirths⟩ := births_of_step hstep
  obtain ⟨hi, -⟩ := List.getElem?_eq_some_iff.mp hrow'
  rw [hbirths, List.getElem?_append_left hi, hrow'] at hrow
  cases hrow
  exact hsent

/-- At least once.  Where there is time to send, and no send of any publisher may take longer than
published rows are kept by any, the following holds of every step of a run.  A row that is
published after it had been taken in by the broker before it; of the rows that were ever appended,
those that are not there any more had been taken in; and a row that goes with the step is one that
a cleanup removes, since it was published long enough ago, and had been taken in.

Where all publishers have one configuration the second condition is just that its limit for a send
is at most its retention.  Publishers of different configurations share the rows, so each may remove
what another is still sending, and the limit of every one is to be at most the retention of every
other. -/
theorem at_least_once (htime : ∀ p ∈ pubs, 0 < p.sendTimeout)
    (hkeep : ∀ p ∈ pubs, ∀ q ∈ pubs, p.sendTimeout ≤ q.retention.rounded)
    (h : Reachable pubs b s) (hstep : Step pubs b s s') :
    (∀ r ∈ s'.table, r.status = .published → s.HasSent b (s'.serial r.id) r) ∧
    (∀ i row, s'.births[i]? = some row →
      (∃ r ∈ s'.table, s'.serial r.id = i ∧ r.asAppended = row) ∨ s.HasSent b i row) ∧
    ∀ r ∈ s.table, (∀ r' ∈ s'.table, r'.asAppended ≠ r.asAppended) →
      Swept pubs s s' r ∧ s.HasSent b (s.serial r.id) r := by
  have houtlasting : Outlasting pubs := by
    intro p hp q hq
    have hpos := htime p hp
    have hle := hkeep p hp q hq
    unfold Span at *
    omega
  have hreach' : Reachable pubs b s' := .step h hstep
  refine ⟨?_, ?_, ?_⟩
  · intro r hr hstatus
    have hposted := posted_before houtlasting h hstep hr hstatus
    have hsent := hasSent_of_posted h hstep hposted ((filed_of_reachable hreach').numbered.born r hr)
    exact hsent
  · intro i row hrow
    have haccounted := accounted_step (filed_of_reachable h) (posted_of_reachable houtlasting h)
      (accounted_of_reachable houtlasting h) hstep
    exact (haccounted i row hrow).imp_right fun hsent => hasSent_of_posted h hstep hsent hrow
  · intro r hr hgone
    rcases kept_or_swept (filed_of_reachable h) hstep hr with ⟨r', hr', hsame, -⟩ | hswept
    · exact absurd hsame (hgone r' hr')
    · refine ⟨hswept, ?_⟩
      obtain ⟨-, -, -, hstatus, -⟩ := hswept
      have hposted := posted_of_reachable houtlasting h r hr hstatus
      obtain ⟨row, hrow, hsent⟩ := exists_hasSent h hposted
      rw [(filed_of_reachable h).numbered.born r hr] at hrow
      cases hrow
      exact hsent

/-! ## A run -/

/-- A publisher whose sends may outlast its claims, but not the retention. -/
def keepingPublisher : PublisherConfig where
  batch := 10
  maxRetries := 10
  staleAfter := .ofSeconds 30
  sendTimeout := .ofSeconds 100
  retention := .ofSeconds 100

/-- A send is slow, so that a second tick takes the row over and publishes it before the first one
comes to record its outcome.  The row is removed, and its identifier is given out again. -/
def lateRun : List Move :=
  let cfg := keepingPublisher
  [.append "users" "first" (some "k"), .claim cfg [⟨.ofSeconds 90, .through⟩],
    .pass (.ofSeconds 31), .claim cfg [], .land 1 0, .record 1, .leave 1,
    .pass (.ofSeconds 59), .land 0 0, .record 0, .leave 0, .pass (.ofSeconds 42), .clean cfg,
    .append "users" "second" (some "k"), .claim cfg [], .land 0 0, .record 0, .leave 0,
    .pass (.ofSeconds 60), .append "tasks" "third" none, .claim cfg [], .land 0 0, .record 0,
    .leave 0, .pass (.ofSeconds 45)]

/-- What is to be seen of a state. -/
structure Survey where
  /-- The rows that are there, and where they stand. -/
  rows : List (Int × OutboxStatus)
  /-- The numbers of the rows of entries. -/
  entries : List (Option Nat)
  /-- The rows that were appended, by identifier and content. -/
  events : List (Int × String)
deriving DecidableEq

/-- Looks at a state. -/
def survey (s : Relay) : Survey where
  rows := s.table.map fun r => (r.id, r.status)
  entries := s.journal.map (·.origin)
  events := s.births.map fun row => (row.id, row.payload)

/-- Two rows of one identifier are gone after a cleanup, and a third one is published: all of them
had been sent, one of them twice. -/
theorem at_least_once_of_lateRun : ∃ s s', Reachable {keepingPublisher} ⟨3, none⟩ s ∧
    Step {keepingPublisher} ⟨3, none⟩ s s' ∧
    survey s = ⟨[(1, .published), (2, .published)], [some 0, some 0, some 1, some 2],
      [(1, "first"), (1, "second"), (2, "third")]⟩ ∧
    survey s' = ⟨[(2, .published)], [some 0, some 0, some 1, some 2],
      [(1, "first"), (1, "second"), (2, "third")]⟩ ∧
    (∀ i row, s'.births[i]? = some row → s.HasSent ⟨3, none⟩ i row) ∧
    ∃ r ∈ s.table, r.id = 1 ∧ Swept {keepingPublisher} s s' r := by
  have hplays : ((plays ⟨3, none⟩ (start emptyDesk) lateRun).bind fun s =>
      (play ⟨3, none⟩ s (.clean keepingPublisher)).map fun s' => (survey s, survey s')) =
      some (⟨[(1, .published), (2, .published)], [some 0, some 0, some 1, some 2],
        [(1, "first"), (1, "second"), (2, "third")]⟩,
        ⟨[(2, .published)], [some 0, some 0, some 1, some 2],
          [(1, "first"), (1, "second"), (2, "third")]⟩) := by
    decide +kernel
  obtain ⟨s, hs, hmap⟩ := Option.bind_eq_some_iff.mp hplays
  obtain ⟨s', hs', hseen⟩ := Option.map_eq_some_iff.mp hmap
  obtain ⟨hbefore, hafter⟩ := Prod.mk.inj hseen
  have hreach : Reachable {keepingPublisher} ⟨3, none⟩ s := by
    refine reachable_of_plays ?_ (.start emptyDesk) hs
    simp [lateRun, Move.Uses, FairSends, Turn.IsHonest]
  have hstep : Step {keepingPublisher} ⟨3, none⟩ s s' :=
    step_of_play (m := .clean keepingPublisher) rfl hs'
  have htime : ∀ p ∈ ({keepingPublisher} : Set PublisherConfig), 0 < p.sendTimeout := by
    rintro p rfl
    decide +kernel
  have hkeep : ∀ p ∈ ({keepingPublisher} : Set PublisherConfig),
      ∀ q ∈ ({keepingPublisher} : Set PublisherConfig), p.sendTimeout ≤ q.retention.rounded := by
    rintro p rfl q rfl
    decide +kernel
  have hrows : (s.table.map fun r => (r.id, r.status)) = [(1, .published), (2, .published)] :=
    congrArg Survey.rows hbefore
  have hrows' : (s'.table.map fun r => (r.id, r.status)) = [(2, .published)] :=
    congrArg Survey.rows hafter
  obtain ⟨hpublished, hborn, hgone⟩ := at_least_once htime hkeep hreach hstep
  refine ⟨s, s', hreach, hstep, hbefore, hafter, ?_, ?_⟩
  · -- the rows that are there are published, the others are gone
    intro i row hrow
    rcases hborn i row hrow with ⟨r, hr, rfl, rfl⟩ | hsent
    · have hmem : (r.id, r.status) ∈ s'.table.map fun r => (r.id, r.status) :=
        List.mem_map_of_mem (f := fun r : OutboxRow => (r.id, r.status)) hr
      rw [hrows', List.mem_singleton] at hmem
      exact hpublished r hr (Prod.mk.inj hmem).2
    · exact hsent
  · obtain ⟨r, rest, htable, hr, -⟩ := List.map_eq_cons_iff.mp hrows
    have hmem : r ∈ s.table := by
      rw [htable]
      exact List.mem_cons_self
    have hid : r.id = 1 := (Prod.mk.inj hr).1
    refine ⟨r, hmem, hid, (hgone r hmem fun r' hr' hsame => ?_).1⟩
    have hmem' : (r'.id, r'.status) ∈ s'.table.map fun r => (r.id, r.status) :=
      List.mem_map_of_mem (f := fun r : OutboxRow => (r.id, r.status)) hr'
    rw [hrows', List.mem_singleton] at hmem'
    have hid' : r'.id = 2 := (Prod.mk.inj hmem').1
    rw [OutboxRow.id_eq_of_asAppended hsame, hid] at hid'
    exact absurd hid' (by decide)

end Publisher

end EventRelay
