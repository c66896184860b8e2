import EventRelay.Proofs.Publisher.Balance
import EventRelay.Proofs.Publisher.Play
import Mathlib.Algebra.BigOperators.Ring.Finset

/-!
# What ticks return

A tick returns the number of rows that it has published.  It counts them by the answers of its own
transactions, while the published total grows inside them; `Noted` writes both down beside a run, and
nothing that happens depends on the notes.

* `exists_noted_of_steps`: every run can be noted.
* `exact_step`: what a tick counts is what it makes the published total grow by, and a tick that has
  returned makes it grow no more.
* `counters_balance`: the counters balance the claims, and what ticks return adds up to what they
  have published.
-/

namespace EventRelay

namespace Publisher

open Relay

/-! ## Notes -/

/-- What is noted about ticks, by their numbers. -/
structure Notes where
  /-- How many rows a tick has published, as it counts them itself. -/
  counted : Nat → Nat
  /-- By how much the total of published rows grew as the tick recorded its outcomes. -/
  caused : Nat → Nat
  /-- The ticks that have returned, and what they returned. -/
  returned : List (Nat × Nat)

variable {pubs : Set PublisherConfig} {b : Broker} {s s' : Relay} {k k' : Notes}

/-- Nothing is noted. -/
def Notes.none : Notes := ⟨fun _ => 0, fun _ => 0, []⟩

/-- A tick counts some rows more, and the total grows. -/
def Notes.record (k : Notes) (number counted caused : Nat) : Notes where
  counted := fun i => k.counted i + if i = number then counted else 0
  caused := fun i => k.caused i + if i = number then caused else 0
  returned := k.returned

/-- A tick returns what it has counted. -/
def Notes.finish (k : Notes) (number : Nat) : Notes :=
  { k with returned := (number, k.counted number) :: k.returned }

/-- A step among publishers, and what is noted of it. -/
inductive Noted (pubs : Set PublisherConfig) (b : Broker) : Relay × Notes → Relay × Notes → Prop
    where
  /-- A tick records an outcome, counts it for itself, and the total may grow. -/
  | record {s s' : Relay} (k : Notes) {t : Tick} {published : Except Failure Bool}
      (h : Records s s' t published) {n : Nat} (hn : GrewBy Counter.isPublished s s' n) :
      Noted pubs b (s, k) (s', k.record t.number (credit published) n)
  /-- A tick without sends or outcomes left returns what it has counted. -/
  | finish {s : Relay} (k : Notes) {before after : List Tick} {t : Tick}
      (ht : s.ticks = before ++ t :: after) (hf : t.flights = []) :
      Noted pubs b (s, k) (s.withTicks (before ++ after), k.finish t.number)
  /-- Anything but the record of an outcome happens; a tick may die. -/
  | other {s s' : Relay} (k : Notes) (h : Step pubs b s s')
      (hother : ∀ t published, ¬ Records s s' t published) : Noted pubs b (s, k) (s', k)

/-- What is noted is a step. -/
theorem step_of_noted (h : Noted pubs b (s, k) (s', k')) : Step pubs b s s' := by
  cases h with
  | record k hrecords hn => exact step_of_records hrecords
  | finish k ht hf => exact .leave s ht
  | other k hstep hother => exact hstep

/-- Whatever happens is noted somehow. -/
theorem exists_noted (hordered : s.table.Ordered) (h : Step pubs b s s') (k : Notes) :
    ∃ k', Noted pubs b (s, k) (s', k') := by
  rcases Classical.em (∃ t published, Records s s' t published) with ⟨t, published, hrecords⟩ | hno
  · exact ⟨_, .record k hrecords (balanced_record hordered hrecords).2⟩
  · exact ⟨k, .other k h fun t published hrecords => hno ⟨t, published, hrecords⟩⟩

/-- Notes can be taken of every run. -/
theorem exists_noted_of_steps {desk : Session}
    (h : Relation.ReflTransGen (Step pubs b) (start desk) s) :
    ∃ k, Relation.ReflTransGen (Noted pubs b) (start desk, .none) (s, k) := by
  induction h with
  | refl => exact ⟨.none, .refl⟩
  | tail hsteps hstep ih =>
    obtain ⟨k, hnoted⟩ := ih
    have hfiled := filed_of_reachable (reachable_start_of_steps hsteps)
    obtain ⟨k', hlast⟩ := exists_noted hfiled.numbered.ordered hstep k
    exact ⟨k', hnoted.tail hlast⟩

/-! ## The numbers of ticks -/

/-- The numbers of ticks. -/
def numbers (ticks : List Tick) : List Nat := ticks.map (·.number)

/-- The numbers of ticks one after another. -/
theorem numbers_append (ticks more : List Tick) :
    numbers (ticks ++ more) = numbers ticks ++ numbers more :=
  List.map_append

/-- The number of a tick comes before those of the others. -/
theorem numbers_cons (t : Tick) (ticks : List Tick) :
    numbers (t :: ticks) = t.number :: numbers ticks :=
  rfl

/-- When a tick is gone, the other numbers are left. -/
theorem numbers_remove (before after : List Tick) (t : Tick) :
    (numbers (before ++ after)).Sublist (numbers (before ++ t :: after)) := by
  rw [numbers_append, numbers_append, numbers_cons]
  exact (List.Sublist.refl _).append (List.sublist_cons_self _ _)

/-- When a tick gets further and keeps its number, no other number comes up. -/
theorem numbers_replace (before after : List Tick) {t t' : Tick} (h : t'.number = t.number) :
    (numbers (before ++ t' :: after)).Sublist (numbers (before ++ t :: after)) := by
  rw [numbers_append, numbers_append, numbers_cons, numbers_cons, h]

/-- An outcome is recorded by a tick under way, and no tick begins then. -/
theorem numbers_of_records {t : Tick} {published : Except Failure Bool}
    (h : Records s s' t published) :
    t.number ∈ numbers s.ticks ∧ (numbers s'.ticks).Sublist (numbers s.ticks) ∧
      s'.claims = s.claims := by
  obtain ⟨before, after, row, result, rest, script, ht, -, -, -, -, rfl⟩ := h
  refine ⟨List.mem_map_of_mem (mem_of_split ht), ?_, rfl⟩
  rw [ht]
  cases published with
  | ok hit =>
    have hsame : (numbers (before ++ [{ t with flights := rest }] ++ after)).Sublist
        (numbers (before ++ t :: after)) := by
      rw [List.append_assoc]
      exact numbers_replace before after rfl
    exact hsame
  | error e =>
    have hless : (numbers (before ++ [] ++ after)).Sublist (numbers (before ++ t :: after)) := by
      rw [List.append_nil]
      exact numbers_remove before after t
    exact hless

/-- A step brings up no number but the next one. -/
theorem numbers_of_step (h : Step pubs b s s') :
    (numbers s'.ticks).Sublist (numbers s.ticks) ∧ s'.claims = s.claims ∨
      numbers s'.ticks = numbers s.ticks ++ [s.claims] ∧ s'.claims = s.claims + 1 := by
  cases h with
  | append eventType topic payload key createdAt => exact .inl ⟨List.Sublist.refl _, rfl⟩
  | @claim cfg hcfg script hscript sends hsends =>
    unfold Relay.claim Relay.transact
    rcases hresult : ((claimBatch cfg).run { s.desk with script }).1 with e | rows
    · simp only [hresult]
      exact .inl ⟨List.Sublist.refl _, trivial⟩
    · simp only [hresult]
      exact .inr ⟨List.map_append, trivial⟩
  | @land before after t ht fs gs row due ending hf hdue =>
    have hsub : (numbers (before ++ { t with
        flights := fs ++ .landed row (finishSend b s.now row ending s.streams).1 :: gs } ::
        after)).Sublist (numbers s.ticks) := by
      rw [ht]
      exact numbers_replace before after rfl
    cases ending <;> exact .inl ⟨hsub, rfl⟩
  | slip ht hf htime hp => exact .inl ⟨List.Sublist.refl _, rfl⟩
  | record ht hover hf hscript =>
    exact .inl (numbers_of_records ⟨_, _, _, _, _, _, ht, hover, hf, hscript, rfl, rfl⟩).2
  | @leave before after t ht =>
    refine .inl ⟨?_, rfl⟩
    rw [ht]
    exact numbers_remove before after t
  | clean hcfg hscript => exact .inl ⟨List.Sublist.refl _, rfl⟩
  | other stream fields maxlen approximate => exact .inl ⟨List.Sublist.refl _, rfl⟩
  | pass hle hwait => exact .inl ⟨List.Sublist.refl _, rfl⟩

/-! ## What is noted is exact -/

/-- The notes tell what ticks have published, and a tick that has returned publishes no more. -/
structure Exact (s₀ s : Relay) (k : Notes) : Prop where
  /-- A tick counts what it makes the total grow by. -/
  counted : k.counted = k.caused
  /-- The total grows by ticks only. -/
  total : GrewBy Counter.isPublished s₀ s (∑ i ∈ Finset.range s.claims, k.caused i)
  /-- A tick that has not begun has published nothing. -/
  unclaimed : ∀ i, s.claims ≤ i → k.caused i = 0
  /-- No two ticks, under way or returned, have one number. -/
  distinct : (numbers s.ticks ++ k.returned.map (·.1)).Nodup
  /-- They have begun. -/
  begun : ∀ i ∈ numbers s.ticks ++ k.returned.map (·.1), i < s.claims
  /-- A tick has returned what it has published. -/
  returned : ∀ e ∈ k.returned, e.2 = k.caused e.1

/-- In the beginning there is nothing to note. -/
theorem exact_start (desk : Session) : Exact (start desk) (start desk) .none where
  counted := rfl
  total := grewBy_of_same rfl
  unclaimed _ _ := rfl
  distinct := List.nodup_nil
  begun _ hi := absurd hi List.not_mem_nil
  returned _ he := absurd he List.not_mem_nil

variable {s₀ : Relay}

/-- A recorded outcome is noted for its tick. -/
theorem Exact.record (hordered : s.table.Ordered) (h : Exact s₀ s k) {t : Tick}
    {published : Except Failure Bool} (hrecords : Records s s' t published) {n : Nat}
    (hn : GrewBy Counter.isPublished s s' n) :
    Exact s₀ s' (k.record t.number (credit published) n) := by
  obtain ⟨hnumber, hsub, hclaims⟩ := numbers_of_records hrecords
  have hsub' := hsub.append (List.Sublist.refl (k.returned.map (·.1)))
  have hbegun : t.number < s.claims := h.begun _ (List.mem_append_left _ hnumber)
  have hcredit : n = credit published := by
    have := (balanced_record hordered hrecords).2
    unfold GrewBy at this hn
    omega
  constructor
  case counted =>
    funext i
    change k.counted i + _ = k.caused i + _
    rw [h.counted, hcredit]
  case total =>
    have hsum : ∑ i ∈ Finset.range s.claims,
        (k.record t.number (credit published) n).caused i =
          ∑ i ∈ Finset.range s.claims, k.caused i + n := by
      unfold Notes.record
      rw [Finset.sum_add_distrib, Finset.sum_ite_eq', if_pos (Finset.mem_range.mpr hbegun)]
    rw [hclaims, hsum]
    exact h.total.trans hn
  case unclaimed =>
    intro i hi
    rw [hclaims] at hi
    change k.caused i + _ = 0
    rw [h.unclaimed i hi, if_neg (Nat.ne_of_gt (Nat.lt_of_lt_of_le hbegun hi))]
  case distinct => exact h.distinct.sublist hsub'
  case begun =>
    rw [hclaims]
    exact fun i hi => h.begun i (hsub'.subset hi)
  case returned =>
    intro e he
    have hother : e.1 ≠ t.number := fun heq =>
      List.disjoint_of_nodup_append h.distinct hnumber (heq ▸ List.mem_map_of_mem he)
    change e.2 = k.caused e.1 + _
    rw [h.returned e he, if_neg hother, Nat.add_zero]

/-- What a tick returns is what it has published. -/
theorem Exact.finish (h : Exact s₀ s k) {before after : List Tick} {t : Tick}
    (ht : s.ticks = before ++ t :: after) :
    Exact s₀ (s.withTicks (before ++ after)) (k.finish t.number) := by
  have hperm : (numbers (before ++ after) ++ t.number :: k.returned.map (·.1)).Perm
      (numbers s.ticks ++ k.returned.map (·.1)) := by
    rw [ht, numbers_append, numbers_append, numbers_cons]
    exact List.perm_middle.trans (List.perm_middle.symm.append_right _)
  constructor
  case counted => exact h.counted
  case total => exact h.total
  case unclaimed => exact h.unclaimed
  case distinct => exact hperm.nodup_iff.mpr h.distinct
  case begun => exact fun i hi => h.begun i (hperm.subset hi)
  case returned =>
    intro e he
    rcases List.mem_cons.mp he with rfl | he
    · exact congrFun h.counted t.number
    · exact h.returned e he

/-- A step that records no outcome leaves the notes right. -/
theorem Exact.other (hordered : s.table.Ordered) (h : Exact s₀ s k) (hstep : Step pubs b s s')
    (hother : ∀ t published, ¬ Records s s' t published) : Exact s₀ s' k := by
  have hgrew : GrewBy Counter.isPublished s s' 0 := by
    rcases records_or_balanced hordered hstep with ⟨t, published, hrecords⟩ | ⟨-, hgrew⟩
    · exact absurd hrecords (hother t published)
    · exact hgrew
  have htotal := h.total.trans hgrew
  rcases numbers_of_step hstep with ⟨hsub, hclaims⟩ | ⟨hnumbers, hclaims⟩
  · have hsub' := hsub.append (List.Sublist.refl (k.returned.map (·.1)))
    exact
      { counted := h.counted
        total := hclaims ▸ htotal
        unclaimed := hclaims ▸ h.unclaimed
        distinct := h.distinct.sublist hsub'
        begun := fun i hi => hclaims ▸ h.begun i (hsub'.subset hi)
        returned := h.returned }
  · have hperm : (numbers s'.ticks ++ k.returned.map (·.1)).Perm
        (s.claims :: (numbers s.ticks ++ k.returned.map (·.1))) := by
      rw [hnumbers, List.append_assoc]
      exact List.perm_middle
    constructor
    case counted => exact h.counted
    case total =>
      rw [hclaims, Finset.sum_range_succ, h.unclaimed s.claims (Nat.le_refl _)]
      exact htotal
    case unclaimed => exact fun i hi => h.unclaimed i (by omega)
    case distinct =>
      refine hperm.nodup_iff.mpr (List.nodup_cons.mpr ⟨fun hmem => ?_, h.distinct⟩)
      exact Nat.lt_irrefl _ (h.begun _ hmem)
    case begun =>
      intro i hi
      rw [hclaims]
      rcases List.mem_cons.mp (hperm.subset hi) with rfl | hi
      · exact Nat.lt_succ_self _
      · exact Nat.lt_succ_of_lt (h.begun i hi)
    case returned => exact h.returned

/-- Every step leaves the notes right. -/
theorem exact_step (hordered : s.table.Ordered) (h : Exact s₀ s k)
    (hnoted : Noted pubs b (s, k) (s', k')) : Exact s₀ s' k' := by
  cases hnoted with
  | record k hrecords hn => exact h.record hordered hrecords hn
  | finish k ht hf => exact h.finish ht
  | other k hstep hother => exact h.other hordered hstep hother

/-- The notes are right in every state of a run. -/
theorem exact_of_noted {desk : Session}
    (h : Relation.ReflTransGen (Noted pubs b) (start desk, .none) (s, k)) :
    Reachable pubs b s ∧ Exact (start desk) s k := by
  suffices hgen : ∀ x, Relation.ReflTransGen (Noted pubs b) (start desk, .none) x →
      Reachable pubs b x.1 ∧ Exact (start desk) x.1 x.2 from hgen (s, k) h
  intro x hx
  induction hx with
  | refl => exact ⟨.start desk, exact_start desk⟩
  | tail _ hlast ih =>
    obtain ⟨hreach, hexact⟩ := ih
    exact ⟨.step hreach (step_of_noted hlast),
      exact_step (filed_of_reachable hreach).numbered.ordered hexact hlast⟩

/-! ## The balance of a run -/

/-- In every run from an empty outbox the claims of rows are as many as the rows published, the
failures and the releases that were counted, and the rows under a claim together.  And however a run
is noted, the published total has grown by what ticks caused, and the values that ticks returned, no
tick twice, add up to what these ticks caused. -/
theorem counters_balance {desk : Session}
    (h : Relation.ReflTransGen (Step pubs b) (start desk) s) :
    (∃ published failures releases, GrewBy Counter.isPublished (start desk) s published ∧
      GrewBy Counter.isSendFailure (start desk) s failures ∧
      GrewBy Counter.isRelease (start desk) s releases ∧
      s.claimLog.length = published + failures + releases + s.table.underClaim) ∧
    (∃ k, Relation.ReflTransGen (Noted pubs b) (start desk, .none) (s, k)) ∧
    ∀ k, Relation.ReflTransGen (Noted pubs b) (start desk, .none) (s, k) →
      GrewBy Counter.isPublished (start desk) s (∑ i ∈ Finset.range s.claims, k.caused i) ∧
      (k.returned.map (·.1)).Nodup ∧
      (k.returned.map (·.2)).sum = (k.returned.map fun e => k.caused e.1).sum := by
  refine ⟨?_, exists_noted_of_steps h, fun k hnoted => ?_⟩
  · obtain ⟨published, failures, releases, hp, hf, hr, hlog⟩ := balanced_of_steps h
    have hempty : (start desk).claimLog.length = 0 ∧ (start desk).table.underClaim = 0 := ⟨rfl, rfl⟩
    exact ⟨published, failures, releases, hp, hf, hr, by omega⟩
  · have hexact := (exact_of_noted hnoted).2
    have hvalues : k.returned.map (·.2) = k.returned.map fun e => k.caused e.1 :=
      List.map_congr_left hexact.returned
    exact ⟨hexact.total, (List.nodup_append.mp hexact.distinct).2.1, congrArg List.sum hvalues⟩

/-! ## A run -/

/-- A publisher whose sends may outlast its claims, and that gives rows up after two attempts. -/
def brusquePublisher : PublisherConfig where
  batch := 10
  maxRetries := 2
  staleAfter := .ofSeconds 30
  sendTimeout := .ofSeconds 100
  retention := .ofSeconds 10

/-- A slow send is overtaken by a second claim, and its outcome comes too late; a tick dies, its row
is claimed again and given up; a row is published and removed; another one is still under way. -/
def crossedRun : List Move :=
  let cfg := brusquePublisher
  [.append "users" "first" (some "k"), .claim cfg [⟨.ofSeconds 90, .through⟩],
    .pass (.ofSeconds 31), .claim cfg [], .land 1 0, .record 1, .leave 1,
    .append "tasks" "second" none, .claim cfg [], .leave 1, .pass (.ofSeconds 59), .clean cfg,
    .land 0 0, .record 0, .leave 0, .claim cfg [⟨0, .raise .timedOut⟩], .land 0 0, .record 0,
    .leave 0, .append "users" "third" none, .claim cfg []]

/-- The amounts that are in balance: claims, rows published, failures, releases, rows under a
claim. -/
def amounts (s : Relay) : List Nat :=
  [s.claimLog.length, s.desk.tally.total Counter.isPublished,
    s.desk.tally.total Counter.isSendFailure, s.desk.tally.total Counter.isRelease,
    s.table.underClaim]

/-- Five claims: one row is published, one failure and two releases are counted, one row is under a
claim. -/
theorem counters_balance_of_crossedRun :
    ∃ s, Relation.ReflTransGen (Step {brusquePublisher} ⟨3, none⟩) (start emptyDesk) s ∧
      amounts s = [5, 1, 1, 2, 1] ∧
      ∃ k, Relation.ReflTransGen (Noted {brusquePublisher} ⟨3, none⟩) (start emptyDesk, .none)
          (s, k) ∧
        ∑ i ∈ Finset.range s.claims, k.caused i = 1 ∧
        (k.returned.map (·.2)).sum = (k.returned.map fun e => k.caused e.1).sum := by
  have hplays : (plays ⟨3, none⟩ (start emptyDesk) crossedRun).map amounts =
      some [5, 1, 1, 2, 1] := by
    decide +kernel
  obtain ⟨s, hs, hamounts⟩ := Option.map_eq_some_iff.mp hplays
  have hsteps : Relation.ReflTransGen (Step {brusquePublisher} ⟨3, none⟩) (start emptyDesk) s :=
    steps_of_plays (by simp [crossedRun, Move.Uses, FairSends, Turn.IsHonest]) hs
  obtain ⟨-, ⟨k, hnoted⟩, hnotes⟩ := counters_balance hsteps
  obtain ⟨hcaused, -, hreturned⟩ := hnotes k hnoted
  refine ⟨s, hsteps, hamounts, k, hnoted, ?_, hreturned⟩
  have hpublished : s.desk.tally.total Counter.isPublished = 1 := by
    unfold amounts at hamounts
    simp only [List.cons.injEq] at hamounts
    exact hamounts.2.1
  unfold GrewBy at hcaused
  have hnone : (start emptyDesk).desk.tally.total Counter.isPublished = 0 := rfl
  omega

end Publisher

end EventRelay
