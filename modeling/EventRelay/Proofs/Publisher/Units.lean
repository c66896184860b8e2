import EventRelay.Proofs.Store.Operations
import EventRelay.Proofs.Store.OutboxTable
import EventRelay.Publisher

/-!
# The units of work of a publisher

What a claim, the recording of an outcome and a cleanup do to the stored tables when nobody else
comes between: all of it, or nothing.  They differ from one another only in the outbox, so each
statement names the outbox that is stored instead.

* `run_claimBatch`: stale claims are taken back, then a batch is claimed, at one instant.
* `run_reconcile`: the row is changed if it is claimed, whoever claimed it.
* `run_cleanup`: rows published before the cutoff are removed.
* `ok_claimBatch`, `ok_reconcile`: where nothing is scripted and all numbers fit, they go through.
-/

namespace EventRelay

namespace Publisher

open Work

variable {α : Type}

/-- A unit of work that ran alone either failed, stored nothing and counted nothing, or gave a
result, stored an outbox and left counters that go together. -/
inductive Transacted (s : Session) (r : Except Failure α × Session)
    (committed : α → Outbox → Tally → Prop) : Prop where
  /-- It failed. -/
  | failed (e : Failure) (result : r.1 = .error e) (stored : r.2.stored = s.stored)
      (tally : r.2.tally = s.tally)
  /-- It committed. -/
  | committed (a : α) (outbox : Outbox) (result : r.1 = .ok a)
      (stored : r.2.stored = { s.stored with outbox }) (h : committed a outbox r.2.tally)

/-- What a unit of work that nobody disturbs has to end with, as a postcondition. -/
def Concludes (s : Session) (committed : α → Outbox → Tally → Prop) (_ : Database)
    (r : Except Failure α) (t : Session) : Prop :=
  match r with
  | .ok a => ∃ outbox, t.stored = { s.stored with outbox } ∧ committed a outbox t.tally
  | .error _ => t.stored = s.stored ∧ t.tally = s.tally

/-- A unit of work that meets its conclusion has ended in one of the two ways. -/
theorem transacted_of_meets {s : Session} {w : Work α} {committed : α → Outbox → Tally → Prop}
    (h : Meets .alone (Concludes s committed) w s.stored (settled s)) :
    Transacted s (w.run s) committed := by
  have hfollow := follow_of_meets (s := settled s) h
  unfold Work.run
  rcases hr : w.follow (settled s) with ⟨_ | a, t⟩
  · rw [hr] at hfollow
    exact .failed _ rfl hfollow.1 hfollow.2
  · rw [hr] at hfollow
    obtain ⟨outbox, hstored, hcommitted⟩ := hfollow
    exact .committed a outbox rfl hstored hcommitted

/-- What a failed operation leaves behind is what was there before, whatever was to follow it. -/
theorem raises_passOn {β : Type} {s t : Session} {op : DbOp}
    {committed : β → Outbox → Tally → Prop} {k : α → Work β} (h : t.stored = s.stored)
    (htally : t.tally = s.tally) :
    Raises .alone (Resembles t) op (passOn .alone (Concludes s committed) k) := by
  rintro u e begun ⟨now, script, rfl⟩ - -
  exact ⟨h, htally⟩

/-- The counters after stale claims were taken back. -/
def afterReleases (tally : Tally) (n : Nat) : Tally :=
  if n = 0 then tally else tally.grow .staleReleased n

/-- The counter that an outcome is counted on. -/
def outcomeCounter (cfg : PublisherConfig) (row : OutboxRow) :
    Except Failure Receipt → Counter
  | .ok _ => .published row.topic
  | .error _ =>
    .sendFailures row.topic (if cfg.maxRetries ≤ row.retryCount + 1 then "failed" else "retry")

/-- The counters after an outcome was recorded, given whether the row was claimed. -/
def afterRecord (tally : Tally) (hit : Bool) (c : Counter) : Tally :=
  if hit then tally.grow c 1 else tally

variable {s : Session} (hscript : s.script.Within Setting.alone.allowed)

include hscript

/-- A claim takes stale claims back, which are counted, and claims a batch. -/
theorem run_claimBatch (cfg : PublisherConfig) :
    Transacted s ((claimBatch cfg).run s) fun rows outbox tally =>
      ∃ olderThan, s.now.before cfg.staleAfter = .ok olderThan ∧
        (rows, outbox) =
          (s.stored.outbox.releaseStale olderThan cfg.maxRetries).2.claim cfg.batch s.now ∧
        tally = afterReleases s.tally
          (s.stored.outbox.releaseStale olderThan cfg.maxRetries).1 := by
  apply transacted_of_meets
  unfold claimBatch
  rw [meets_bind, meets_now]
  simp only [passOn]
  rw [meets_bind, meets_ofExcept]
  rcases hold : (settled s).now.before cfg.staleAfter with e | olderThan
  · exact ⟨rfl, rfl⟩
  simp only [passOn]
  rw [meets_bind]
  refine meets_outboxRelease (P := Resembles (settled s)) (Resembles.stable _) (Resembles.refl _)
    hscript rfl (raises_passOn rfl rfl) ?_
  rintro t ⟨now, script, rfl⟩ htscript
  simp only [passOn]
  rw [meets_bind]
  refine meets_outboxClaim (Resembles.stable _) (Resembles.refl _) ?_ rfl (raises_passOn rfl rfl) ?_
  · exact htscript
  rintro t ⟨now, script, rfl⟩ htscript
  simp only [passOn]
  rw [meets_bind]
  refine meets_commit (Resembles.stable _) (Resembles.refl _) ?_ rfl (raises_passOn rfl rfl) ?_
  · exact htscript
  rintro t ⟨now, script, rfl⟩ -
  have hnonneg : ¬ ((s.stored.outbox.releaseStale olderThan cfg.maxRetries).1 : Int) < 0 := by
    omega
  simp only [passOn]
  rw [if_neg (by exact hnonneg)]
  by_cases hzero : (s.stored.outbox.releaseStale olderThan cfg.maxRetries).1 = 0
  · have hnone : afterReleases s.tally
        (s.stored.outbox.releaseStale olderThan cfg.maxRetries).1 = s.tally := if_pos hzero
    rw [if_neg (by exact fun h => h (congrArg Int.ofNat hzero))]
    exact ⟨_, rfl, olderThan, hold, rfl, hnone.symm⟩
  · have hsome : afterReleases s.tally (s.stored.outbox.releaseStale olderThan cfg.maxRetries).1 =
        s.tally.grow .staleReleased (s.stored.outbox.releaseStale olderThan cfg.maxRetries).1 :=
      if_neg hzero
    rw [if_pos (by exact fun h => hzero (Int.ofNat.inj h))]
    exact ⟨_, rfl, olderThan, hold, rfl, hsome.symm⟩

/-- Recording a success changes the row and is counted if the row is claimed, and tells whether it
was. -/
theorem run_recordSuccess (cfg : PublisherConfig) (row : OutboxRow) (receipt : Receipt) :
    Transacted s ((reconcile cfg row (.ok receipt)).run s) fun published outbox tally =>
      outbox = (s.stored.outbox.markPublished row.id s.now).2 ∧
        published = s.stored.outbox.isClaimed row.id ∧
        tally = afterRecord s.tally (s.stored.outbox.isClaimed row.id)
          (outcomeCounter cfg row (.ok receipt)) := by
  apply transacted_of_meets
  unfold reconcile recordSuccess
  rw [meets_bind, meets_now]
  simp only [passOn]
  rw [meets_bind]
  refine meets_outboxPublish (P := Resembles (settled s)) (Resembles.stable _)
    (Resembles.refl _) hscript rfl (raises_passOn rfl rfl) ?_
  rintro t ⟨now, script, rfl⟩ htscript
  simp only [passOn]
  rw [meets_bind]
  refine meets_commit (Resembles.stable _) (Resembles.refl _) ?_ rfl (raises_passOn rfl rfl) ?_
  · exact htscript
  rintro t ⟨now, script, rfl⟩ -
  simp only [passOn]
  split
  · rename_i hhit
    exact ⟨_, rfl, rfl, rfl, (if_pos hhit).symm⟩
  · rename_i hmiss
    exact ⟨_, rfl, rfl, rfl, (if_neg hmiss).symm⟩

/-- Recording a failure changes the row and is counted if the row is claimed: it waits again or is
given up. -/
theorem run_recordFailure (cfg : PublisherConfig) (row : OutboxRow) (cause : Failure) :
    Transacted s ((reconcile cfg row (.error cause)).run s) fun published outbox tally =>
      outbox = (s.stored.outbox.recordFailure row.id (row.retryCount + 1) (causeText cause)
        (if cfg.maxRetries ≤ row.retryCount + 1 then .failed else .pending)).2 ∧
        published = false ∧
        tally = afterRecord s.tally (s.stored.outbox.isClaimed row.id)
          (outcomeCounter cfg row (.error cause)) := by
  apply transacted_of_meets
  unfold reconcile recordFailure
  rw [meets_bind]
  dsimp only
  rw [meets_bind]
  refine meets_outboxFail (P := Resembles (settled s)) (Resembles.stable _)
    (Resembles.refl _) hscript rfl ?_ ?_
  · rintro t e begun ⟨now, script, rfl⟩ - -
    exact ⟨rfl, rfl⟩
  rintro t ⟨now, script, rfl⟩ htscript
  simp only [passOn]
  rw [meets_bind]
  refine meets_commit (Resembles.stable _) (Resembles.refl _) ?_ rfl ?_ ?_
  · exact htscript
  · rintro t e begun ⟨now, script, rfl⟩ - -
    exact ⟨rfl, rfl⟩
  rintro t ⟨now, script, rfl⟩ -
  have hcounter : outcomeCounter cfg row (.error cause) = .sendFailures row.topic
      (if cfg.maxRetries ≤ row.retryCount + 1 then "failed" else "retry") := rfl
  rw [hcounter]
  simp only [passOn, if_true, decide_eq_true_eq]
  -- the first split is on whether the row is given up, the second on whether it was still claimed
  split
  all_goals
    split
    · rename_i hmiss
      change (!s.stored.outbox.isClaimed row.id) = true at hmiss
      rw [Bool.not_eq_true'] at hmiss
      exact ⟨_, rfl, rfl, rfl, by rw [hmiss]; rfl⟩
    · rename_i hhit
      change ¬ (!s.stored.outbox.isClaimed row.id) = true at hhit
      rw [Bool.not_eq_true, Bool.not_eq_false'] at hhit
      exact ⟨_, rfl, rfl, rfl, by rw [hhit]; rfl⟩

/-- Recording an outcome changes the row if it is claimed: after a success it is published, after a
failure it waits again or is given up.  What is changed is counted. -/
theorem run_reconcile (cfg : PublisherConfig) (row : OutboxRow)
    (result : Except Failure Receipt) :
    Transacted s ((reconcile cfg row result).run s) fun published outbox tally =>
      outbox = (match result with
        | .ok _ => (s.stored.outbox.markPublished row.id s.now).2
        | .error cause => (s.stored.outbox.recordFailure row.id (row.retryCount + 1)
            (causeText cause)
            (if cfg.maxRetries ≤ row.retryCount + 1 then .failed else .pending)).2) ∧
        published = (match result with
          | .ok _ => s.stored.outbox.isClaimed row.id
          | .error _ => false) ∧
        tally = afterRecord s.tally (s.stored.outbox.isClaimed row.id)
          (outcomeCounter cfg row result) := by
  cases result with
  | ok receipt => exact run_recordSuccess hscript cfg row receipt
  | error cause => exact run_recordFailure hscript cfg row cause

/-- A cleanup removes the rows published before the cutoff, and counts nothing. -/
theorem run_cleanup (cfg : PublisherConfig) :
    Transacted s ((cleanup cfg).run s) fun _ outbox tally =>
      ∃ cutoff, s.now.before cfg.retention = .ok cutoff ∧
        outbox = (s.stored.outbox.purge cutoff).2 ∧ tally = s.tally := by
  apply transacted_of_meets
  unfold cleanup
  rw [meets_bind, meets_now]
  simp only [passOn]
  rw [meets_bind, meets_ofExcept]
  rcases hcutoff : (settled s).now.before cfg.retention with e | cutoff
  · exact ⟨rfl, rfl⟩
  simp only [passOn]
  rw [meets_bind]
  refine meets_outboxPurge (P := Resembles (settled s)) (Resembles.stable _) (Resembles.refl _)
    hscript rfl (raises_passOn rfl rfl) ?_
  rintro t ⟨now, script, rfl⟩ htscript
  simp only [passOn]
  rw [meets_bind]
  refine meets_commit (Resembles.stable _) (Resembles.refl _) ?_ rfl (raises_passOn rfl rfl) ?_
  · exact htscript
  rintro t ⟨now, script, rfl⟩ -
  exact ⟨_, rfl, cutoff, hcutoff, rfl, rfl⟩

omit hscript

/-! ## When nothing goes wrong -/

/-- A claim goes through if the calendar and the database can be told its numbers. -/
theorem ok_claimBatch {cfg : PublisherConfig} (hbatch : Scalar.fitsWord cfg.batch = true)
    (hretries : Scalar.fitsWord cfg.maxRetries = true) (desk : Session) {olderThan : Instant}
    (hscript : desk.script = .none) (hold : desk.now.before cfg.staleAfter = .ok olderThan) :
    ∃ rows, ((claimBatch cfg).run desk).1 = .ok rows := by
  have hnonneg : ¬ ((desk.stored.outbox.releaseStale olderThan cfg.maxRetries).1 : Int) < 0 := by
    omega
  unfold claimBatch run
  simp only [follow_bind, follow_now, follow_ofExcept, outboxRelease, outboxClaim, settled, hold]
  simp only [follow_bind, follow_perform, follow_attempt, follow_word, follow_stage, follow_commit,
    hscript, hbatch, hretries]
  rw [if_neg hnonneg]
  by_cases hzero : ((desk.stored.outbox.releaseStale olderThan cfg.maxRetries).1 : Int) ≠ 0
  · rw [if_pos hzero]
    exact ⟨_, rfl⟩
  · rw [if_neg hzero]
    exact ⟨_, rfl⟩

/-- An outcome can be recorded if the database can be told its numbers. -/
theorem ok_reconcile (cfg : PublisherConfig) {row : OutboxRow} (desk : Session)
    (hscript : desk.script = .none) (result : Except Failure Receipt)
    (hid : Scalar.fitsWord row.id = true) (hretry : Scalar.fitsWord (row.retryCount + 1) = true) :
    ∃ published, ((reconcile cfg row result).run desk).1 = .ok published := by
  cases result with
  | ok receipt =>
    unfold reconcile recordSuccess run
    simp only [follow_bind, follow_now, outboxPublish, settled]
    simp only [follow_bind, follow_attempt, follow_word, follow_stage, follow_commit, hscript, hid]
    generalize (Outbox.markPublished _ _ _).1 = hit
    cases hit with
    | false => exact ⟨_, rfl⟩
    | true => exact ⟨_, rfl⟩
  | error cause =>
    unfold reconcile recordFailure run
    simp only [follow_bind, outboxFail, settled]
    simp only [follow_bind, follow_attempt, follow_word, follow_stage, follow_commit, hscript, hid,
      hretry]
    generalize (Outbox.changeClaimed _ _ _).1 = hit
    cases hit with
    | false => exact ⟨_, rfl⟩
    | true => exact ⟨_, rfl⟩

end Publisher

end EventRelay
