import EventRelay.Proofs.Publisher.Bookkeeping
import Mathlib.Data.List.Nodup

/-!
# Counters and claims

Every row that comes under a claim leaves it once: its success is counted, or its failure, or the
watchdog counts its release.  So the counters and the rows still under a claim add up to the claims.

* `Outbox.underClaim_releaseStale`, `Outbox.underClaim_claim`, `Outbox.underClaim_changeClaimed`:
  how each change of the outbox changes the number of rows under a claim.
* `balanced_record`: a recorded outcome is counted if it takes a row out of a claim.
* `records_or_balanced`: the published total grows by recorded outcomes only.
* `balanced_of_steps`: in every run claims, counters and rows under a claim are in balance.

The counter of a commit grows with it, so that the balance holds in every state.  It does not
depend on whose claim a row leaves: an outcome that comes late is counted once if it changes the
row, whoever has claimed it since, and not at all if it does not.
-/

namespace EventRelay

/-! ## Totals -/

namespace Counter

/-- It counts rows that the broker accepted. -/
def isPublished : Counter → Bool
  | published _ => true
  | _ => false

/-- It counts failed sends, whether the row is given up or not. -/
def isSendFailure : Counter → Bool
  | sendFailures _ outcome => outcome = "retry" || outcome = "failed"
  | _ => false

/-- It counts claims that the watchdog took back. -/
def isRelease : Counter → Bool
  | staleReleased => true
  | _ => false

end Counter

namespace Tally

/-- The sum of all totals of a kind. -/
def total (p : Counter → Bool) : Tally → Nat
  | [] => 0
  | (c, n) :: t => (if p c then n else 0) + total p t

/-- A counter that grows raises the totals of its kind. -/
theorem total_grow (p : Counter → Bool) (t : Tally) (c : Counter) (n : Nat) :
    (t.grow c n).total p = t.total p + if p c then n else 0 := by
  induction t with
  | nil => exact Nat.add_comm _ _
  | cons entry rest ih =>
    obtain ⟨d, m⟩ := entry
    unfold grow
    by_cases hd : d = c
    · subst hd
      rw [if_pos rfl]
      unfold total
      by_cases hp : p d
      · simp only [if_pos hp]
        omega
      · simp only [if_neg hp]
        omega
    · rw [if_neg hd]
      unfold total
      rw [ih]
      omega

end Tally

namespace Publisher

/-- Stale claims that are taken back raise the total of releases only. -/
theorem total_afterReleases (p : Counter → Bool) (t : Tally) (n : Nat) :
    (afterReleases t n).total p = t.total p + if p .staleReleased then n else 0 := by
  unfold afterReleases
  by_cases h : n = 0
  · rw [if_pos h, h]
    simp
  · rw [if_neg h, Tally.total_grow]

/-- An outcome that hits its row raises the total of its counter. -/
theorem total_afterRecord (p : Counter → Bool) (t : Tally) (hit : Bool) (c : Counter) :
    (afterRecord t hit c).total p = t.total p + if hit ∧ p c then 1 else 0 := by
  unfold afterRecord
  cases hit with
  | true => simp [Tally.total_grow]
  | false => simp

end Publisher

/-! ## Rows under a claim -/

namespace Outbox

variable {t : Outbox}

/-- How many rows are under a claim. -/
def underClaim (t : Outbox) : Nat := t.countP fun r => r.status = .processing

/-- The rows under a claim are counted one by one. -/
theorem underClaim_cons (r : OutboxRow) (t : Outbox) :
    underClaim (r :: t) = underClaim t + if r.status = .processing then 1 else 0 := by
  unfold underClaim
  rw [List.countP_cons]
  simp

/-- Where some rows leave their claims, the others that were under a claim still are. -/
theorem underClaim_leave {p : OutboxRow → Prop} [DecidablePred p] {g : OutboxRow → OutboxRow}
    (hp : ∀ r, p r → r.status = .processing) (hg : ∀ r, (g r).status ≠ .processing) :
    underClaim (t.map fun r => if p r then g r else r) + t.countP (fun r => p r) =
      underClaim t := by
  induction t with
  | nil => rfl
  | cons r t ih =>
    rw [List.map_cons, underClaim_cons, underClaim_cons, List.countP_cons]
    by_cases h : p r
    · rw [if_pos h, if_neg (hg r), if_pos (hp r h), if_pos (decide_eq_true h)]
      omega
    · rw [if_neg h, if_neg (fun hr => h (of_decide_eq_true hr))]
      omega

/-- Where some rows come under claims, those that were under a claim still are. -/
theorem underClaim_enter {p : OutboxRow → Prop} [DecidablePred p] {g : OutboxRow → OutboxRow}
    (hp : ∀ r, p r → r.status ≠ .processing) (hg : ∀ r, (g r).status = .processing) :
    underClaim (t.map fun r => if p r then g r else r) =
      underClaim t + t.countP (fun r => p r) := by
  induction t with
  | nil => rfl
  | cons r t ih =>
    rw [List.map_cons, underClaim_cons, underClaim_cons, List.countP_cons]
    by_cases h : p r
    · rw [if_pos h, if_pos (hg r), if_neg (hp r h), if_pos (decide_eq_true h)]
      omega
    · rw [if_neg h, if_neg (c := decide (p r) = true) fun hr => h (of_decide_eq_true hr)]
      omega

/-- The claims that the watchdog takes back are those that it counts. -/
theorem underClaim_releaseStale (t : Outbox) (olderThan : Instant) (maxRetries : Int) :
    (t.releaseStale olderThan maxRetries).2.underClaim + (t.releaseStale olderThan maxRetries).1 =
      t.underClaim := by
  have hleave := underClaim_leave (t := t) (p := fun r => isStale olderThan r = true)
    (g := released maxRetries) (fun r hr => (isStale_iff.mp hr).1) fun r => by
      rcases status_released maxRetries r with h | h
      · rw [h]
        nofun
      · rw [h]
        nofun
  simp only [Bool.decide_eq_true] at hleave
  exact hleave

/-- One row has an identifier, so an outcome takes one row at most out of its claim. -/
theorem countP_isHit (ht : t.Ordered) (id : Int) :
    t.countP (fun r => IsHit id r) = if t.isClaimed id then 1 else 0 := by
  have hle : t.countP (fun r => IsHit id r) ≤ 1 := by
    calc t.countP (fun r => IsHit id r)
        ≤ t.countP (fun r => r.id = id) := by
          refine List.countP_mono_left fun r _ hr => ?_
          exact decide_eq_true (of_decide_eq_true hr).1
      _ = (t.map (·.id)).count id := by
          rw [List.count, List.countP_map]
          exact List.countP_congr fun r _ => by simp
      _ ≤ 1 := List.nodup_iff_count_le_one.mp ht.nodup id
  by_cases hclaimed : t.isClaimed id = true
  · rw [if_pos hclaimed]
    obtain ⟨r, hr, hhit⟩ := isClaimed_iff.mp hclaimed
    have hpos : 0 < t.countP (fun r => IsHit id r) :=
      List.countP_pos_iff.mpr ⟨r, hr, decide_eq_true hhit⟩
    omega
  · rw [if_neg hclaimed]
    exact List.countP_eq_zero.mpr fun r hr hhit =>
      hclaimed (isClaimed_iff.mpr ⟨r, hr, of_decide_eq_true hhit⟩)

/-- An outcome that hits a row ends one claim, and any other none. -/
theorem underClaim_changeClaimed (ht : t.Ordered) (id : Int) {change : OutboxRow → OutboxRow}
    (hchange : ∀ r, (change r).status ≠ .processing) :
    (t.changeClaimed id change).2.underClaim + (if t.isClaimed id then 1 else 0) =
      t.underClaim := by
  rw [changeClaimed_snd, ← countP_isHit ht]
  exact underClaim_leave (fun r hr => hr.2) hchange

/-- Every row of a batch comes under a claim. -/
theorem underClaim_claim (ht : t.Ordered) (batch : Int) (now : Instant) :
    (t.claim batch now).2.underClaim = t.underClaim + (t.claim batch now).1.length := by
  have hchosen : t.countP (fun r => r ∈ t.chosen batch) = (t.chosen batch).length := by
    rw [List.countP_eq_length_filter]
    refine List.Perm.length_eq ((List.perm_ext_iff_of_nodup ?_ ?_).mpr fun r => ?_)
    · exact (List.Nodup.of_map _ ht.nodup).filter _
    · exact List.Nodup.of_map _ (nodup_chosen_ids ht.nodup)
    · rw [List.mem_filter]
      exact ⟨fun h => of_decide_eq_true h.2,
        fun h => ⟨(mem_of_mem_chosen h).1, decide_eq_true h⟩⟩
  rw [claim_snd ht.distinct, claim_fst, List.length_map, ← hchosen]
  refine underClaim_enter (fun r hr hstatus => ?_) fun r => rfl
  rw [status_of_isEligible (mem_of_mem_chosen hr).2] at hstatus
  cases hstatus

/-- A cleanup removes no row that is under a claim. -/
theorem underClaim_purge (t : Outbox) (cutoff : Instant) :
    (t.purge cutoff).2.underClaim = t.underClaim := by
  unfold underClaim purge
  rw [List.countP_filter]
  refine List.countP_congr fun r _ => ?_
  rw [Bool.and_eq_true, decide_eq_true_eq, Bool.not_eq_true']
  refine ⟨And.left, fun hstatus => ⟨hstatus, ?_⟩⟩
  by_contra hspent
  rw [Bool.not_eq_false, isSpent_iff, hstatus] at hspent
  cases hspent.1

end Outbox

namespace Publisher

open Relay

variable {pubs : Set PublisherConfig} {b : Broker} {s s' s'' : Relay}

/-! ## The balance -/

/-- How much the totals of a kind have grown since an earlier state. -/
def GrewBy (p : Counter → Bool) (s s' : Relay) (n : Nat) : Prop :=
  s'.desk.tally.total p = s.desk.tally.total p + n

/-- Growth adds up. -/
theorem GrewBy.trans {p : Counter → Bool} {m n : Nat} (h : GrewBy p s s' m)
    (h' : GrewBy p s' s'' n) : GrewBy p s s'' (m + n) := by
  unfold GrewBy at *
  omega

/-- Where the counters are the same nothing has grown. -/
theorem grewBy_of_same {p : Counter → Bool} (h : s'.desk.tally = s.desk.tally) :
    GrewBy p s s' 0 := by
  unfold GrewBy
  rw [h, Nat.add_zero]

/-- Since an earlier state, claims were made as often as outcomes and releases were counted, but for
the rows that are under a claim. -/
def Balanced (s s' : Relay) : Prop :=
  ∃ published failures releases, GrewBy Counter.isPublished s s' published ∧
    GrewBy Counter.isSendFailure s s' failures ∧ GrewBy Counter.isRelease s s' releases ∧
    s'.claimLog.length + s.table.underClaim =
      s.claimLog.length + (published + failures + releases + s'.table.underClaim)

/-- What is in balance stays so over two stretches of a run. -/
theorem Balanced.trans (h : Balanced s s') (h' : Balanced s' s'') : Balanced s s'' := by
  obtain ⟨published, failures, releases, hp, hf, hr, hlog⟩ := h
  obtain ⟨published', failures', releases', hp', hf', hr', hlog'⟩ := h'
  exact ⟨_, _, _, hp.trans hp', hf.trans hf', hr.trans hr', by omega⟩

/-- Where claims, counters and the rows under a claim are the same the balance is. -/
theorem balanced_of_same (htally : s'.desk.tally = s.desk.tally)
    (hlog : s'.claimLog = s.claimLog) (htable : s'.table.underClaim = s.table.underClaim) :
    Balanced s s' :=
  ⟨0, 0, 0, grewBy_of_same htally, grewBy_of_same htally, grewBy_of_same htally,
    by rw [hlog, htable]; omega⟩

/-- A claim takes rows under a claim, and counts the releases that it starts with. -/
theorem balanced_claim (hordered : s.table.Ordered) {cfg : PublisherConfig} {script : DbScript}
    (hscript : FairScript script) (sends : List (Outcome String)) :
    Balanced s (s.claim cfg b script sends) ∧
      GrewBy Counter.isPublished s (s.claim cfg b script sends) 0 := by
  unfold Relay.claim Relay.transact
  rcases run_claimBatch (s := { s.desk with script }) hscript cfg with
    ⟨e, hresult, hstored, htally⟩ |
    ⟨rows, outbox, hresult, hstored, olderThan, hold, hclaim, htally⟩
  · simp only [hresult]
    exact ⟨balanced_of_same htally rfl (congrArg (fun d => Outbox.underClaim d.outbox) hstored),
      grewBy_of_same htally⟩
  · simp only [hresult]
    have hgrown : ∀ p, Tally.total p ((claimBatch cfg).run { s.desk with script }).2.tally =
        s.desk.tally.total p + if p .staleReleased then
          (s.table.releaseStale olderThan cfg.maxRetries).1 else 0 := by
      intro p
      rw [htally]
      exact total_afterReleases p s.desk.tally _
    have hreleased := Outbox.underClaim_releaseStale s.table olderThan cfg.maxRetries
    have hclaimed := Outbox.underClaim_claim
      ((Outbox.releaseStale_descends s.table olderThan cfg.maxRetries).ordered hordered)
      cfg.batch s.now
    have hrows : rows =
        ((s.table.releaseStale olderThan cfg.maxRetries).2.claim cfg.batch s.now).1 :=
      congrArg Prod.fst hclaim
    have houtbox : outbox =
        ((s.table.releaseStale olderThan cfg.maxRetries).2.claim cfg.batch s.now).2 :=
      congrArg Prod.snd hclaim
    refine ⟨⟨0, 0, _, hgrown _, hgrown _, hgrown _, ?_⟩, hgrown _⟩
    have htable : Outbox.underClaim
        ((claimBatch cfg).run { s.desk with script }).2.stored.outbox = outbox.underClaim :=
      congrArg (fun d => Outbox.underClaim d.outbox) hstored
    have hlength : (rows.map (fun row => (s.serial row.id, s.claims)) ++ s.claimLog).length =
        rows.length + s.claimLog.length := by
      rw [List.length_append, List.length_map]
    change (rows.map (fun row => (s.serial row.id, s.claims)) ++ s.claimLog).length +
      s.table.underClaim = s.claimLog.length + (0 + 0 +
        (s.table.releaseStale olderThan cfg.maxRetries).1 +
        Outbox.underClaim ((claimBatch cfg).run { s.desk with script }).2.stored.outbox)
    rw [htable, hlength, houtbox, hclaimed, ← hrows]
    omega

/-- An outcome of a tick is recorded, which tells whether the row was published by it. -/
def Records (s s' : Relay) (t : Tick) (published : Except Failure Bool) : Prop :=
  ∃ before after row result rest script, s.ticks = before ++ t :: after ∧
    nextDue? t.flights = none ∧ t.flights = .landed row result :: rest ∧ FairScript script ∧
    (s.transact script (reconcile t.cfg row result)).1 = published ∧
    s' = (s.transact script (reconcile t.cfg row result)).2.withTicks (before ++
      (match published with
        | .ok _ => [{ t with flights := rest }]
        | .error _ => []) ++ after)

/-- The recording of an outcome is a step. -/
theorem step_of_records {t : Tick} {published : Except Failure Bool}
    (h : Records s s' t published) : Step pubs b s s' := by
  obtain ⟨before, after, row, result, rest, script, ht, hover, hf, hscript, rfl, rfl⟩ := h
  exact .record s ht hover hf hscript

/-- What a recorded outcome adds to the number of rows that its tick has published. -/
def credit : Except Failure Bool → Nat
  | .ok true => 1
  | .ok false => 0
  | .error _ => 0

/-- An outcome is counted on one kind of counter, if it is counted. -/
theorem kinds_outcomeCounter (hit : Bool) (cfg : PublisherConfig) (row : OutboxRow)
    (result : Except Failure Receipt) :
    (if hit ∧ (outcomeCounter cfg row result).isPublished then 1 else 0) +
      (if hit ∧ (outcomeCounter cfg row result).isSendFailure then 1 else 0) +
      (if hit ∧ (outcomeCounter cfg row result).isRelease then 1 else 0) =
        if hit then 1 else 0 := by
  cases hit with
  | false => simp
  | true =>
    cases result with
    | ok receipt => rfl
    | error cause =>
      unfold outcomeCounter
      by_cases hgiven : cfg.maxRetries ≤ row.retryCount + 1
      · simp only [if_pos hgiven]
        rfl
      · simp only [if_neg hgiven]
        rfl

/-- An outcome that is recorded takes the row out of a claim, if it is under one, and then it is
counted. -/
theorem balanced_outcome (hordered : s.table.Ordered) {cfg : PublisherConfig} {row : OutboxRow}
    {result : Except Failure Receipt} (hlog : s'.claimLog = s.claimLog)
    (htable : s'.table = (s.table.changeClaimed row.id (afterOutcome cfg s.now row result)).2)
    (htally : s'.desk.tally =
      afterRecord s.desk.tally (s.table.isClaimed row.id) (outcomeCounter cfg row result)) :
    Balanced s s' ∧ GrewBy Counter.isPublished s s'
      (if s.table.isClaimed row.id ∧ (outcomeCounter cfg row result).isPublished then 1 else 0) := by
  have hgrown : ∀ p, GrewBy p s s'
      (if s.table.isClaimed row.id ∧ p (outcomeCounter cfg row result) then 1 else 0) := by
    intro p
    unfold GrewBy
    rw [htally]
    exact total_afterRecord p s.desk.tally _ _
  refine ⟨⟨_, _, _, hgrown _, hgrown _, hgrown _, ?_⟩, hgrown _⟩
  rw [kinds_outcomeCounter, hlog, htable,
    ← Outbox.underClaim_changeClaimed hordered row.id (status_afterOutcome cfg s.now row result)]
  omega

/-- An outcome that is recorded keeps the balance, and counts a row where it publishes one. -/
theorem balanced_record (hordered : s.table.Ordered) {t : Tick}
    {published : Except Failure Bool} (h : Records s s' t published) :
    Balanced s s' ∧ GrewBy Counter.isPublished s s' (credit published) := by
  obtain ⟨before, after, row, result, rest, script, -, -, -, hscript, hresult, rfl⟩ := h
  subst hresult
  unfold Relay.transact
  rcases run_reconcile (s := { s.desk with script }) hscript t.cfg row result with
    ⟨e, hresult, hstored, htally⟩ |
    ⟨published, outbox, hresult, hstored, houtbox, hpublished, htally⟩
  · simp only [hresult]
    exact ⟨balanced_of_same htally rfl (congrArg (fun d => Outbox.underClaim d.outbox) hstored),
      grewBy_of_same htally⟩
  · simp only [hresult]
    have hchanged : outbox =
        (s.table.changeClaimed row.id (afterOutcome t.cfg s.now row result)).2 := by
      rw [houtbox]
      cases result <;> rfl
    have hcredit : credit (.ok published) = if s.table.isClaimed row.id ∧
        (outcomeCounter t.cfg row result).isPublished then 1 else 0 := by
      rw [hpublished]
      cases result with
      | ok receipt =>
        change credit (.ok (s.table.isClaimed row.id)) = _
        cases s.table.isClaimed row.id <;> rfl
      | error cause => simp [credit, outcomeCounter, Counter.isPublished]
    rw [hcredit]
    exact balanced_outcome hordered rfl ((congrArg Database.outbox hstored).trans hchanged) htally

/-- A cleanup counts nothing, and removes no row that is under a claim. -/
theorem balanced_clean {cfg : PublisherConfig} {script : DbScript} (hscript : FairScript script) :
    Balanced s (s.transact script (cleanup cfg)).2 ∧
      GrewBy Counter.isPublished s (s.transact script (cleanup cfg)).2 0 := by
  unfold Relay.transact
  rcases run_cleanup (s := { s.desk with script }) hscript cfg with
    ⟨e, -, hstored, htally⟩ | ⟨n, outbox, -, hstored, cutoff, -, houtbox, htally⟩
  · exact ⟨balanced_of_same htally rfl (congrArg (fun d => Outbox.underClaim d.outbox) hstored),
      grewBy_of_same htally⟩
  · refine ⟨balanced_of_same htally rfl ?_, grewBy_of_same htally⟩
    have htable := congrArg (fun d => Outbox.underClaim d.outbox) hstored
    rw [houtbox] at htable
    exact htable.trans (Outbox.underClaim_purge s.table cutoff)

/-- A step records an outcome, or it keeps the balance and publishes nothing. -/
theorem records_or_balanced (hordered : s.table.Ordered) (h : Step pubs b s s') :
    (∃ t published, Records s s' t published) ∨
      Balanced s s' ∧ GrewBy Counter.isPublished s s' 0 := by
  have same : ∀ {s' : Relay}, s'.desk.tally = s.desk.tally → s'.claimLog = s.claimLog →
      s'.table.underClaim = s.table.underClaim →
      Balanced s s' ∧ GrewBy Counter.isPublished s s' 0 :=
    fun htally hlog htable => ⟨balanced_of_same htally hlog htable, grewBy_of_same htally⟩
  cases h with
  | append eventType topic payload key createdAt =>
    refine .inr (same rfl rfl ?_)
    have ha := appended_append (s := s) eventType topic payload key createdAt
    rw [ha.table]
    unfold Outbox.underClaim
    rw [List.countP_append]
    rfl
  | claim hcfg hscript hsends => exact .inr (balanced_claim hordered hscript _)
  | @land before after t ht fs gs row due ending hf hdue =>
    cases ending <;> exact .inr (same rfl rfl rfl)
  | slip ht hf htime hp => exact .inr (same rfl rfl rfl)
  | record ht hover hf hscript =>
    exact .inl ⟨_, _, _, _, _, _, _, _, ht, hover, hf, hscript, rfl, rfl⟩
  | leave ht => exact .inr (same rfl rfl rfl)
  | clean hcfg hscript => exact .inr (balanced_clean hscript)
  | other stream fields maxlen approximate => exact .inr (same rfl rfl rfl)
  | pass hle hwait => exact .inr (same rfl rfl rfl)

/-- Every step keeps the balance. -/
theorem balanced_of_step (hordered : s.table.Ordered) (h : Step pubs b s s') : Balanced s s' := by
  rcases records_or_balanced hordered h with ⟨t, published, hrecords⟩ | ⟨hbalanced, -⟩
  · exact (balanced_record hordered hrecords).1
  · exact hbalanced

/-- Where steps lead from the beginning is reachable. -/
theorem reachable_start_of_steps {desk : Session}
    (h : Relation.ReflTransGen (Step pubs b) (start desk) s) : Reachable pubs b s :=
  reachable_of_steps (.start desk) h

/-- In every state of a run the counters are in balance with the beginning. -/
theorem balanced_of_steps {desk : Session}
    (h : Relation.ReflTransGen (Step pubs b) (start desk) s) : Balanced (start desk) s := by
  induction h with
  | refl => exact balanced_of_same rfl rfl rfl
  | tail hsteps hstep ih =>
    have hfiled := filed_of_reachable (reachable_start_of_steps hsteps)
    exact ih.trans (balanced_of_step hfiled.numbered.ordered hstep)

end Publisher

end EventRelay
