import EventRelay.Proofs.Store.Claiming

/-!
# The work that an outbox holds

An unfinished row can be attempted as often as its retries allow, and once in any case.  The sum over
all rows is a measure of what is left to do: no operation on the outbox but an append raises it, and
every outcome lowers it.

* `load_eq_zero_iff`: nothing is left exactly if every row is finished.
* `load_releaseStale_le`, `load_claim`: taking claims back lowers the load, claiming leaves it.
* `load_changeClaimed_lt`: an outcome that makes its row lighter lowers the load.
* `exists_isEligible`: where no row is under a claim, a row that waits is not held back for ever: the
  waiting row of the smallest identifier may be claimed.
-/

namespace EventRelay

namespace Outbox

variable {t t' : Outbox} {r q : OutboxRow} {batch m : Int} {now olderThan : Instant}

/-! ## The weight of a row -/

/-- How many attempts a row can still take: one at least as long as it is unfinished. -/
def weight (maxRetries : Int) (r : OutboxRow) : Nat :=
  if r.status.inFlight then (max 1 (maxRetries - r.retryCount)).toNat else 0

/-- How many attempts all rows together can still take. -/
def load (maxRetries : Int) : Outbox → Nat
  | [] => 0
  | r :: t => weight maxRetries r + load maxRetries t

/-- An unfinished row can take an attempt for each retry that is left, and one at least. -/
theorem weight_of_inFlight (h : r.status.inFlight = true) :
    weight m r = (max 1 (m - r.retryCount)).toNat := if_pos h

/-- A finished row takes no attempt. -/
theorem weight_of_finished (h : r.status.inFlight = false) : weight m r = 0 :=
  if_neg (Bool.eq_false_iff.mp h)

/-- The rows that take no attempt are the finished ones. -/
theorem weight_eq_zero_iff : weight m r = 0 ↔ r.status.inFlight = false := by
  refine ⟨fun h => ?_, weight_of_finished⟩
  by_contra hflight
  rw [weight_of_inFlight (Bool.not_eq_false _ ▸ hflight)] at h
  omega

/-- A finished row is a published or a failed one. -/
theorem inFlight_eq_false_iff {status : OutboxStatus} :
    status.inFlight = false ↔ status = .published ∨ status = .failed := by
  cases status <;> decide

/-- A claim uses up no attempt. -/
theorem weight_claimed (h : r.status = .pending) (now : Instant) :
    weight m (claimed now r) = weight m r := by
  rw [weight_of_inFlight (r := claimed now r) rfl, weight_of_inFlight (r := r) (by rw [h]; rfl)]
  rfl

/-- A row that waits again after one more attempt, below the limit, is lighter. -/
theorem weight_lt_of_retry (h : r.status.inFlight = true) (hcount : q.retryCount = r.retryCount + 1)
    (hlimit : q.status.inFlight = true → ¬ m ≤ r.retryCount + 1) : weight m q < weight m r := by
  rw [weight_of_inFlight h]
  by_cases hq : q.status.inFlight = true
  · have := hlimit hq
    rw [weight_of_inFlight hq, hcount]
    omega
  · rw [weight_of_finished (Bool.not_eq_true _ ▸ hq)]
    omega

/-- A stale claim that is taken back has used up an attempt. -/
theorem weight_released (h : r.status = .processing) : weight m (released m r) < weight m r := by
  refine weight_lt_of_retry (by rw [h]; rfl) (retryCount_released m r) fun hflight hgiven => ?_
  have hstatus : (released m r).status = .failed := by
    unfold released
    dsimp only
    rw [if_pos hgiven]
  rw [hstatus] at hflight
  cases hflight

/-! ## The load of a table -/

/-- The load of a table is that of its first row and that of the others. -/
theorem load_cons (m : Int) (r : OutboxRow) (t : Outbox) :
    load m (r :: t) = weight m r + load m t := rfl

/-- The load of two tables together is the sum. -/
theorem load_append (m : Int) (t t' : Outbox) : load m (t ++ t') = load m t + load m t' := by
  induction t with
  | nil => exact (Nat.zero_add _).symm
  | cons r t ih => rw [List.cons_append, load_cons, load_cons, ih, Nat.add_assoc]

/-- There is no load where every row is finished. -/
theorem load_eq_zero_iff : load m t = 0 ↔ ∀ r ∈ t, r.status.inFlight = false := by
  induction t with
  | nil => exact ⟨fun _ r hr => absurd hr List.not_mem_nil, fun _ => rfl⟩
  | cons r t ih =>
    rw [load_cons, Nat.add_eq_zero_iff, weight_eq_zero_iff, ih, List.forall_mem_cons]

/-- Fewer rows have no more load. -/
theorem load_le_of_sublist (h : List.Sublist t' t) : load m t' ≤ load m t := by
  induction h with
  | slnil => exact Nat.le_refl _
  | cons r _ ih => exact Nat.le_trans ih (Nat.le_add_left _ _)
  | cons_cons r _ ih => exact Nat.add_le_add_left ih _

/-- A change by which no row gains an attempt does not raise the load. -/
theorem load_map_le {g : OutboxRow → OutboxRow} (h : ∀ r ∈ t, weight m (g r) ≤ weight m r) :
    load m (t.map g) ≤ load m t := by
  induction t with
  | nil => exact Nat.le_refl _
  | cons r t ih =>
    rw [List.map_cons, load_cons, load_cons]
    exact Nat.add_le_add (h r List.mem_cons_self) (ih fun q hq => h q (List.mem_cons_of_mem _ hq))

/-- A change by which each row keeps its attempts leaves the load. -/
theorem load_map_eq {g : OutboxRow → OutboxRow} (h : ∀ r ∈ t, weight m (g r) = weight m r) :
    load m (t.map g) = load m t := by
  induction t with
  | nil => rfl
  | cons r t ih =>
    rw [List.map_cons, load_cons, load_cons, h r List.mem_cons_self,
      ih fun q hq => h q (List.mem_cons_of_mem _ hq)]

/-- A row that gets lighter makes the load smaller, if no other one gets heavier. -/
theorem load_map_lt {g : OutboxRow → OutboxRow} (h : ∀ r ∈ t, weight m (g r) ≤ weight m r)
    (hr : r ∈ t) (hlt : weight m (g r) < weight m r) : load m (t.map g) < load m t := by
  obtain ⟨before, after, rfl⟩ := List.append_of_mem hr
  have hbefore := load_map_le fun q hq => h q (List.mem_append_left _ hq)
  have hafter := load_map_le fun q hq => h q (List.mem_append_right _ (List.mem_cons_of_mem _ hq))
  rw [List.map_append, List.map_cons, load_append, load_append, load_cons, load_cons]
  omega

/-! ## The load after an operation -/

/-- The watchdog never raises the load. -/
theorem load_releaseStale_le (t : Outbox) (olderThan : Instant) (m : Int) :
    load m (t.releaseStale olderThan m).2 ≤ load m t := by
  rw [releaseStale_snd]
  refine load_map_le fun r _ => ?_
  unfold afterRelease
  by_cases hstale : isStale olderThan r = true
  · rw [if_pos hstale]
    exact Nat.le_of_lt (weight_released (isStale_iff.mp hstale).1)
  · rw [if_neg hstale]

/-- A claim leaves the load as it is. -/
theorem load_claim (ht : t.Distinct) (batch : Int) (now : Instant) :
    load m (t.claim batch now).2 = load m t := by
  rw [claim_snd ht]
  refine load_map_eq fun r _ => ?_
  by_cases hmem : r ∈ t.chosen batch
  · rw [if_pos hmem, weight_claimed (status_of_isEligible (mem_of_mem_chosen hmem).2)]
  · rw [if_neg hmem]

/-- An outcome for a row that is under a claim lowers the load, if it makes the row lighter. -/
theorem load_changeClaimed_lt (ht : t.Distinct) {change : OutboxRow → OutboxRow} (hr : r ∈ t)
    (hstatus : r.status = .processing) (hlighter : weight m (change r) < weight m r) :
    load m (t.changeClaimed r.id change).2 < load m t := by
  rw [changeClaimed_snd]
  refine load_map_lt (fun q hq => ?_) hr ?_
  · by_cases hhit : IsHit r.id q
    · rw [if_pos hhit, ht q hq r hr hhit.1]
      exact Nat.le_of_lt hlighter
    · rw [if_neg hhit]
  · rw [if_pos ⟨rfl, hstatus⟩]
    exact hlighter

/-! ## Something can be claimed -/

/-- Where every claim is stale the watchdog leaves none. -/
theorem status_ne_processing_of_releaseStale
    (hstale : ∀ r ∈ t, r.status = .processing → isStale olderThan r = true)
    (hr : r ∈ (t.releaseStale olderThan m).2) : r.status ≠ .processing := by
  rw [releaseStale_snd] at hr
  obtain ⟨q, hq, rfl⟩ := List.mem_map.mp hr
  intro hstatus
  have hprocessing := (calm_afterRelease olderThan m).processing q hstatus
  unfold afterRelease at hstatus
  rw [if_pos (hstale q hq hprocessing)] at hstatus
  rcases status_released m q with h | h
  · rw [h] at hstatus
    cases hstatus
  · rw [h] at hstatus
    cases hstatus

/-- Where no row is under a claim, the first row that waits is not held back. -/
theorem exists_isEligible (ht : t.Ordered) (hnone : ∀ r ∈ t, r.status ≠ .processing)
    (hr : r ∈ t) (hwaits : r.status = .pending) : ∃ q ∈ t, isEligible t q = true := by
  obtain ⟨q, hfind⟩ : ∃ q, t.find? (·.status = .pending) = some q :=
    Option.isSome_iff_exists.mp (List.find?_isSome.mpr ⟨r, hr, decide_eq_true hwaits⟩)
  obtain ⟨hq, before, after, rfl, hbefore⟩ := List.find?_eq_some_iff_append.mp hfind
  have hqt : q ∈ before ++ q :: after := List.mem_append_right _ List.mem_cons_self
  refine ⟨q, hqt, isEligible_iff.mpr ⟨of_decide_eq_true hq, .inr ?_⟩⟩
  rintro ⟨p, hp, -, hlt, hflight⟩
  have hwaiting : p.status = .pending := hflight.resolve_right (hnone p hp)
  -- a waiting row of a smaller identifier would stand before the first waiting one
  rcases List.mem_append.mp hp with hp | hp
  · have := hbefore p hp
    rw [hwaiting] at this
    cases this
  · have hpairwise := (List.pairwise_append.mp (List.pairwise_map.mp ht)).2.1
    rcases List.mem_cons.mp hp with rfl | hp
    · exact Int.lt_irrefl _ hlt
    · exact Int.lt_irrefl _ (Int.lt_trans hlt ((List.pairwise_cons.mp hpairwise).1 p hp))

/-- A claim picks something if a row may be claimed. -/
theorem chosen_ne_nil (hbatch : 1 ≤ batch) (hr : r ∈ t) (heligible : isEligible t r = true) :
    t.chosen batch ≠ [] := by
  have hmem : r ∈ t.queue := by
    unfold queue
    rw [List.mem_mergeSort]
    exact List.mem_filter.mpr ⟨hr, heligible⟩
  rw [chosen_eq_take (Int.le_trans (by decide) hbatch)]
  intro hnil
  rcases List.take_eq_nil_iff.mp hnil with hzero | hempty
  · omega
  · rw [hempty] at hmem
    cases hmem

end Outbox

end EventRelay
