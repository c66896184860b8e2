import EventRelay.Proofs.Publisher.Bookkeeping
import EventRelay.Proofs.Publisher.Play
import Mathlib.Data.Set.Insert

/-!
# The life of a row

Publishers write to a row in four ways: they claim it, take the claim back for another attempt,
record that it was published, or give it up.  None of these touches what the row says, and nothing
is written to a row that is finished.  One transaction may write to a row twice, since a tick takes
a stale claim back and claims the row again at once.

* `OutboxRow.Writes`, `OutboxRow.Becomes`: one write to a row, and any number of them.
* `turnover_of_step`: a step appends a row, writes to rows, or removes published ones.
* `fate_of_steps`: a row of a state is there in every later one, with writes to it, or a cleanup
  removed it in between, and then its number is gone.
* `lifecycle`: the main statement, for publishers of any settings.
-/

namespace EventRelay

namespace OutboxRow

/-! ## Writes -/

/-- One write to a row. -/
inductive Writes : OutboxRow → OutboxRow → Prop where
  /-- A row that waits is claimed. -/
  | claim {r : OutboxRow} (hstatus : r.status = .pending) (now : Instant) :
      Writes r { r with status := .processing, processedAt := some now }
  /-- A claimed row is to be tried again. -/
  | retry {r : OutboxRow} (hstatus : r.status = .processing) (retryCount : Int)
      (errorMessage : Option String) :
      Writes r { r with status := .pending, retryCount, errorMessage }
  /-- A claimed row is published. -/
  | publish {r : OutboxRow} (hstatus : r.status = .processing) (now : Instant) :
      Writes r { r with status := .published, processedAt := some now }
  /-- A claimed row is given up. -/
  | giveUp {r : OutboxRow} (hstatus : r.status = .processing) (retryCount : Int)
      (errorMessage : Option String) :
      Writes r { r with status := .failed, retryCount, errorMessage }

/-- What a row becomes by any number of writes. -/
def Becomes : OutboxRow → OutboxRow → Prop := Relation.ReflTransGen Writes

variable {r q : OutboxRow}

/-- A claimed or published row tells when that was. -/
def Stamped (r : OutboxRow) : Prop :=
  r.status = .processing ∨ r.status = .published → r.processedAt ≠ none

/-- A row that tells when it was claimed or published does so whatever it becomes. -/
theorem Stamped.becomes (h : r.Stamped) (hbecomes : r.Becomes q) : q.Stamped := by
  induction hbecomes with
  | refl => exact h
  | tail _ hwrite _ =>
    cases hwrite with
    | claim => exact fun _ => nofun
    | retry => exact fun hstatus => hstatus.elim nofun nofun
    | publish => exact fun _ => nofun
    | giveUp => exact fun hstatus => hstatus.elim nofun nofun

end OutboxRow

namespace Outbox

open OutboxRow

variable {t : Outbox} {r : OutboxRow} {olderThan now : Instant} {maxRetries batch : Int}

/-- What the watchdog makes of a row is what a row may become. -/
theorem becomes_afterRelease (olderThan : Instant) (maxRetries : Int) (r : OutboxRow) :
    r.Becomes (afterRelease olderThan maxRetries r) := by
  unfold afterRelease
  by_cases hstale : isStale olderThan r = true
  · rw [if_pos hstale]
    have hstatus := (isStale_iff.mp hstale).1
    unfold released
    dsimp only
    split
    · exact .single (.giveUp hstatus _ _)
    · exact .single (.retry hstatus _ _)
  · rw [if_neg hstale]
    exact .refl

/-- A tick writes to a row at most twice when it starts. -/
theorem becomes_afterClaim (r : OutboxRow) :
    r.Becomes (afterClaim t olderThan maxRetries batch now r) := by
  have hreleased := becomes_afterRelease olderThan maxRetries r
  unfold afterClaim
  dsimp only
  by_cases hchosen : afterRelease olderThan maxRetries r ∈
      chosen (t.releaseStale olderThan maxRetries).2 batch
  · rw [if_pos hchosen]
    exact hreleased.tail (.claim (status_of_isEligible (mem_of_mem_chosen hchosen).2) now)
  · rw [if_neg hchosen]
    exact hreleased

end Outbox

namespace Publisher

open Relay

variable {pubs : Set PublisherConfig} {b : Broker} {s s' : Relay}

/-- What an outcome makes of a claimed row is what a row may become. -/
theorem becomes_afterOutcome {cfg : PublisherConfig} {now : Instant} {row r : OutboxRow}
    (result : Except Failure Receipt) (hstatus : r.status = .processing) :
    r.Becomes (afterOutcome cfg now row result r) := by
  cases result with
  | ok receipt => exact .single (.publish hstatus now)
  | error cause =>
    unfold afterOutcome
    dsimp only
    split
    · exact .single (.giveUp hstatus _ _)
    · exact .single (.retry hstatus _ _)

/-! ## What a step makes of the rows -/

/-- A row is another one later: it is the same event, claimed or published when it was before or
now. -/
def Continues (now : Instant) (r' r : OutboxRow) : Prop :=
  r'.asAppended = r.asAppended ∧ (r'.processedAt = r.processedAt ∨ r'.processedAt = some now)

/-- The watchdog and a claim leave a row the same event, claimed before or now. -/
theorem continues_afterClaim (t : Outbox) (olderThan : Instant) (maxRetries batch : Int)
    (now : Instant) (r : OutboxRow) :
    Continues now (Outbox.afterClaim t olderThan maxRetries batch now r) r := by
  refine ⟨Outbox.asAppended_afterClaim olderThan maxRetries batch now r, ?_⟩
  have hkept : (Outbox.afterRelease olderThan maxRetries r).processedAt = r.processedAt := by
    unfold Outbox.afterRelease Outbox.released
    split
    · dsimp only
      split <;> rfl
    · rfl
  unfold Outbox.afterClaim
  dsimp only
  split
  · exact .inr rfl
  · exact .inl hkept

/-- An outcome leaves a row the same event, published before or now. -/
theorem continues_afterOutcome (cfg : PublisherConfig) (now : Instant) (row : OutboxRow)
    (result : Except Failure Receipt) (r : OutboxRow) :
    Continues now (afterOutcome cfg now row result r) r := by
  refine ⟨asAppended_afterOutcome cfg now row result r, ?_⟩
  cases result with
  | ok receipt => exact .inr rfl
  | error cause => exact .inl rfl

/-- A step is a cleanup that removes a row: it was published, at an instant before the cutoff. -/
def Swept (pubs : Set PublisherConfig) (s s' : Relay) (r : OutboxRow) : Prop :=
  ∃ cfg ∈ pubs, (∃ script, s' = (s.transact script (cleanup cfg)).2) ∧ r.status = .published ∧
    ∃ since, r.processedAt = some since ∧ since < s.now - cfg.retention.rounded

/-- What a step makes of the rows that are there. -/
inductive Turnover (pubs : Set PublisherConfig) (s s' : Relay) : Prop where
  /-- A row is new. -/
  | grown (row : OutboxRow) (h : Appended s s' row)
  /-- Rows are written to. -/
  | changed (g : OutboxRow → OutboxRow) (htable : s'.table = s.table.map g)
      (hbecomes : ∀ r : OutboxRow, r.Becomes (g r)) (hcontinues : ∀ r, Continues s.now (g r) r)
  /-- Published rows are removed. -/
  | shrunk (htable : s'.table.Sublist s.table)
      (hgone : ∀ r ∈ s.table, r ∈ s'.table ∨ Swept pubs s s' r)

/-- Where the table is the same every row goes on. -/
theorem turnover_of_same (htable : s'.table = s.table) : Turnover pubs s s' :=
  .changed id (by rw [htable, List.map_id]) (fun _ => .refl) fun _ => ⟨rfl, .inl rfl⟩

/-- Every step appends a row, changes rows as they may be changed, or sweeps some. -/
theorem turnover_of_step (hfiled : Filed pubs b s) (hstep : Step pubs b s s') :
    Turnover pubs s s' := by
  cases hstep with
  | append eventType topic payload key createdAt =>
    exact .grown _ (appended_append eventType topic payload key createdAt)
  | @claim cfg hcfg script hscript sends hsends =>
    rcases table_claim (s := s) (b := b) hscript cfg sends with htable | ⟨olderThan, -, htable⟩
    · exact turnover_of_same htable
    · rw [Outbox.claim_releaseStale_snd hfiled.numbered.ordered] at htable
      exact .changed _ htable Outbox.becomes_afterClaim
        (continues_afterClaim s.table olderThan cfg.maxRetries cfg.batch s.now)
  | @land before after t ht fs gs row due ending hf hdue =>
    refine turnover_of_same ?_
    cases ending <;> rfl
  | slip ht hf htime hp => exact turnover_of_same rfl
  | @record before after t ht hover row result rest hf script hscript =>
    rcases table_reconcile (s := s) hscript t.cfg row result with htable | htable
    · exact turnover_of_same htable
    · rw [Outbox.changeClaimed_snd] at htable
      refine .changed _ htable (fun r => ?_) fun r => ?_
      · by_cases hhit : Outbox.IsHit row.id r
        · rw [if_pos hhit]
          exact becomes_afterOutcome result hhit.2
        · rw [if_neg hhit]
          exact .refl
      · by_cases hhit : Outbox.IsHit row.id r
        · rw [if_pos hhit]
          exact continues_afterOutcome t.cfg s.now row result r
        · rw [if_neg hhit]
          exact ⟨rfl, .inl rfl⟩
  | leave ht => exact turnover_of_same rfl
  | @clean cfg hcfg script hscript =>
    rcases table_cleanup (s := s) hscript cfg with htable | ⟨cutoff, hcutoff, htable⟩
    · exact turnover_of_same htable
    · refine .shrunk (htable ▸ Outbox.purge_sublist s.table cutoff) fun r hr => ?_
      by_cases hkept : r ∈ (s.table.purge cutoff).2
      · rw [← htable] at hkept
        exact .inl hkept
      · obtain ⟨hstatus, since, hsince, hlt⟩ :=
          Outbox.isSpent_iff.mp (Outbox.isSpent_of_purged hr hkept)
        rw [eq_of_before hcutoff] at hlt
        exact .inr ⟨cfg, hcfg, ⟨script, rfl⟩, hstatus, since, hsince, hlt⟩
  | other stream fields maxlen approximate => exact turnover_of_same rfl
  | pass hle hwait => exact turnover_of_same rfl

end Publisher

end EventRelay
