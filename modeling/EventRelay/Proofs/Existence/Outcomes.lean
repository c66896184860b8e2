import EventRelay.Proofs.Existence.Trial

/-!
# What the breaker is told of a call

A breaker that is half-open refuses every call until it is told how its trial ended.  It would do so
for ever if a call could end without an outcome.  None can: whether the remote side answers, the
attempts run out, or the call is cancelled while it asks or while it waits, the breaker is told of
it, and only once, however many attempts there were.

* `breaker_of_step`: a step changes the breaker by what it notes down of the ends of calls, and by
  nothing else than that but a request for permission.
* `tallied_of_reachable`: a call that was let through is under way or has had its one outcome.
* `Opener`: a call is the one whose admission made the circuit half-open; `opener_under_way`,
  `exists_opener`: while the circuit is half-open there is such a call, and it is under way.
* `never_wedged`: the main statement.
-/

namespace EventRelay

namespace Existence

variable {s s' : Inquiries}

/-! ## What the history says of the breaker -/

/-- What becomes of a breaker by an incident: it takes note of the ends of calls. -/
def noting (cfg : BreakerConfig Span) (now : Instant) (b : Breaker Instant) :
    Incident → Breaker Instant
  | .learned .. => b.succeed
  | .gaveUp _ => (b.fail cfg now).1
  | _ => b

section incidents

variable (cfg : BreakerConfig Span) (now : Instant) (b : Breaker Instant) (user : Int)
  (basis? : Option CacheEntry)

/-- What ends no call leaves the breaker as it is. -/
theorem foldl_noting_of_not_ends {incidents : List Incident}
    (h : ∀ call, ∀ x ∈ incidents, ¬ x.Ends call) : incidents.foldl (noting cfg now) b = b := by
  induction incidents with
  | nil => rfl
  | cons x incidents ih =>
    have hx : noting cfg now b x = b := by
      cases x with
      | learned n attempt user entry =>
        exact absurd (ends_learned.mpr rfl) (h n _ List.mem_cons_self)
      | gaveUp n => exact absurd (ends_gaveUp.mpr rfl) (h n _ List.mem_cons_self)
      | asked n attempt user => rfl
      | served user entry => rfl
      | evicted who => rfl
    rw [List.foldl_cons, hx]
    exact ih fun call y hy => h call y (List.mem_cons_of_mem x hy)

/-- An answer from an entry ends no call. -/
theorem not_ends_servedBy (call : Nat) : ∀ x ∈ servedBy user basis?, ¬ x.Ends call := by
  cases basis? with
  | none => exact nofun
  | some e =>
    intro x hx
    rw [List.mem_singleton.mp hx]
    exact ends_served

/-- What a step adds to the history is its news. -/
theorem news_of_history {incidents : List Incident} (h : s'.history = s.history ++ incidents) :
    news s s' = incidents := by
  unfold news
  rw [h]
  exact List.drop_left

end incidents

/-- A call that starts asks the breaker for permission, or is answered before it comes to that. -/
theorem breaker_consult (c : Cache) (now : Instant) (user : Int) :
    (c.consult now user).cache.breaker = c.breaker ∨
      (c.consult now user).cache.breaker = (c.breaker.allow c.circuit now).2 := by
  unfold Cache.consult
  rcases c.youngEntry? now c.policy.ttl user with _ | e
  · rcases c.breaker.allow c.circuit now with ⟨_ | _, breaker⟩
    · exact .inr rfl
    · exact .inr rfl
  · exact .inl rfl

/-- A call that starts consults the cache. -/
theorem cache_consult (s : Inquiries) (user : Int) :
    (s.consult user).cache = (s.cache.consult s.now user).cache := by
  unfold Inquiries.consult
  dsimp only
  split
  · rfl
  · rfl

/-- A call that starts ends no call. -/
theorem not_ends_consult (s : Inquiries) (user : Int) (call : Nat) :
    ∀ x ∈ news s (s.consult user), ¬ x.Ends call := by
  unfold Inquiries.consult
  dsimp only
  split
  · rw [news_turn]
    exact not_ends_servedBy user _ call
  · rw [news_of_history rfl]
    intro x hx
    rw [List.mem_singleton.mp hx]
    exact ends_asked

/-- An attempt that ends its call is noted down as what the breaker takes note of. -/
theorem breaker_settle (s : Inquiries) (before after : List Call) (c : Call)
    (outcome : Except Failure Bool) :
    (s.settle before after c outcome).cache.breaker =
      (news s (s.settle before after c outcome)).foldl (noting s.cache.circuit s.now)
        s.cache.breaker := by
  unfold Inquiries.settle Cache.settle Inquiries.endings
  cases outcome with
  | ok found =>
    dsimp only
    rw [news_turn]
    rfl
  | error e =>
    dsimp only
    by_cases he : e.isCancellation = true
    · simp only [he, if_true]
      rw [news_turn]
      rfl
    · simp only [Bool.not_eq_true] at he
      by_cases hagain : c.check.attempt < s.cache.policy.limit
      · simp only [he, hagain, if_true, Bool.false_eq_true, if_false]
        rw [news_turn]
        rfl
      · simp only [he, hagain, Bool.false_eq_true, if_false]
        rw [news_turn]
        exact (foldl_noting_of_not_ends _ _ _ (not_ends_servedBy _ _)).symm

/-- So is the cancellation of a call that waits. -/
theorem breaker_cancel (s : Inquiries) (before after : List Call) (c : Call) {cause : Failure}
    (hcause : cause.isCancellation = true) :
    (s.cancel before after c cause).cache.breaker =
      (news s (s.cancel before after c cause)).foldl (noting s.cache.circuit s.now)
        s.cache.breaker := by
  unfold Inquiries.cancel Cache.abandon Cache.settle Inquiries.endings
  rw [news_turn]
  simp only [hcause, if_true]
  rfl

/-- The breaker after a step is what the ends of calls noted down in it make of it.  Besides, a call
that starts asks it for permission, and ends no other one. -/
def Told (s s' : Inquiries) : Prop :=
  s'.cache.breaker = (news s s').foldl (noting s.cache.circuit s.now) s.cache.breaker ∨
    ∃ user, s' = s.consult user ∧ (∀ call, ∀ x ∈ news s s', ¬ x.Ends call) ∧
      s'.cache.breaker = (s.cache.breaker.allow s.cache.circuit s.now).2

/-- After every step the breaker is what the noted ends of calls make of it. -/
theorem breaker_of_step (hstep : Step s s') : Told s s' := by
  cases hstep with
  | consult user =>
    have hnone := not_ends_consult s user
    rcases breaker_consult s.cache s.now user with hsame | hasked
    · left
      rw [cache_consult, hsame, foldl_noting_of_not_ends _ _ _ hnone]
    · exact .inr ⟨user, rfl, hnone, (congrArg Cache.breaker (cache_consult s user)).trans hasked⟩
  | @settle before after c hc hasking outcome =>
    exact .inl (breaker_settle s before after c outcome)
  | @resume before after c hc hresting =>
    left
    unfold Inquiries.resume
    rw [news_turn]
    rfl
  | @cancel before after c hc hresting cause hcause =>
    exact .inl (breaker_cancel s before after c hcause)
  | evict who =>
    left
    obtain ⟨entries, hevict⟩ := evict_eq_turn s who
    rw [hevict, news_turn]
    rfl
  | @pass later hle =>
    left
    have hnews : news s (s.waitUntil later) = [] := List.drop_length
    rw [hnews]
    rfl

/-! ## One outcome for every call -/

instance (x : Incident) (call : Nat) : Decidable (x.Ends call) :=
  inferInstanceAs (Decidable (x.success? = some call ∨ x.failure? = some call))

/-- How often the breaker was told of the end of a call. -/
def outcomes (s : Inquiries) (call : Nat) : Nat := s.history.countP fun x => x.Ends call

/-- Every call that was let through is under way, or has had its one outcome; no other number has
any. -/
def Tallied (s : Inquiries) : Prop :=
  ∀ n, outcomes s n + (s.calls.map (·.number)).count n = if n < s.count then 1 else 0

/-- The outcomes of a call are counted incident by incident. -/
theorem outcomes_turn (cache : Cache) (calls : List Call) (incidents : List Incident) (n : Nat) :
    outcomes (s.turn cache calls incidents) n =
      outcomes s n + incidents.countP fun x => x.Ends n := by
  unfold outcomes
  rw [turn_history, List.countP_append]

/-- Incidents that end no call are no outcomes. -/
theorem countP_of_not_ends {incidents : List Incident}
    (h : ∀ call, ∀ x ∈ incidents, ¬ x.Ends call) (n : Nat) :
    (incidents.countP fun x => x.Ends n) = 0 := by
  rw [List.countP_eq_zero]
  intro x hx hends
  exact h n x hx (of_decide_eq_true hends)

/-- Where no call starts or ends, nothing is counted. -/
theorem Tallied.same (h : Tallied s) {cache : Cache} {calls : List Call}
    {incidents : List Incident} (hcalls : calls.map (·.number) = s.calls.map (·.number))
    (hnews : ∀ call, ∀ x ∈ incidents, ¬ x.Ends call) : Tallied (s.turn cache calls incidents) := by
  intro n
  rw [outcomes_turn, countP_of_not_ends hnews, Nat.add_zero]
  show outcomes s n + (calls.map (·.number)).count n = _
  rw [hcalls]
  exact h n

/-- A call that ends has its outcome, and is under way no more. -/
theorem Tallied.ended (h : Tallied s) {before after : List Call} {c : Call}
    (hc : s.calls = before ++ c :: after) {cache : Cache} {x : Incident} {incidents : List Incident}
    (hx : ∀ n, x.Ends n ↔ c.number = n) (hnews : ∀ call, ∀ y ∈ incidents, ¬ y.Ends call) :
    Tallied (s.turn cache (before ++ after) (x :: incidents)) := by
  intro n
  have hbefore := h n
  rw [hc, List.map_append, List.map_cons, List.count_append, List.count_cons] at hbefore
  rw [outcomes_turn, List.countP_cons, countP_of_not_ends hnews]
  show _ + ((before ++ after).map (·.number)).count n = _
  rw [List.map_append, List.count_append]
  by_cases hn : c.number = n
  · have hends : decide (x.Ends n) = true := decide_eq_true ((hx n).mpr hn)
    simp only [hends, if_true]
    simp only [hn, beq_self_eq_true, if_true] at hbefore
    show _ = if n < s.count then 1 else 0
    omega
  · have hends : decide (x.Ends n) = false := decide_eq_false fun hends => hn ((hx n).mp hends)
    have hne : (c.number == n) = false := beq_false_of_ne hn
    simp only [hends, Bool.false_eq_true, if_false]
    simp only [hne, Bool.false_eq_true, if_false] at hbefore
    show _ = if n < s.count then 1 else 0
    omega

/-- A call that is let through is under way. -/
theorem Tallied.admit (h : Tallied s) (cache : Cache) (check : Check) (found : Circuit) :
    Tallied { s.turn cache (s.calls ++ [⟨s.count, check, false, s.now, found⟩])
      [.asked s.count 1 check.user] with count := s.count + 1 } := by
  intro n
  have hbefore := h n
  have hnews : ∀ call, ∀ x ∈ [Incident.asked s.count 1 check.user], ¬ x.Ends call := by
    intro call x hx
    rw [List.mem_singleton.mp hx]
    exact ends_asked
  show (s.history ++ [Incident.asked s.count 1 check.user]).countP (fun x => x.Ends n) +
      ((s.calls ++ [(⟨s.count, check, false, s.now, found⟩ : Call)]).map (·.number)).count n =
    if n < s.count + 1 then 1 else 0
  rw [List.countP_append, countP_of_not_ends hnews, List.map_append, List.count_append,
    List.map_singleton, List.count_singleton]
  unfold outcomes at hbefore
  by_cases hn : s.count = n
  · subst hn
    rw [if_neg (Nat.lt_irrefl _)] at hbefore
    simp only [beq_self_eq_true, if_true, Nat.lt_succ_self]
    omega
  · have hlt : n < s.count + 1 ↔ n < s.count := by omega
    simp only [beq_false_of_ne hn, Bool.false_eq_true, if_false, hlt]
    omega

/-- After every step each call is under way or has had its outcome. -/
theorem tallied_step (h : Tallied s) (hstep : Step s s') : Tallied s' := by
  cases effect_of_step hstep with
  | answered user basis? hbasis rejected hs' =>
    rw [hs']
    exact h.same rfl (not_ends_servedBy user basis?)
  | admitted user breaker hallow hs' =>
    rw [hs']
    exact h.admit _ _ _
  | rested before after c hc hs' =>
    rw [hs']
    exact h.same (by rw [hc, List.map_append, List.map_append]; rfl) nofun
  | succeeded before after c hc hasking found hs' =>
    rw [hs']
    exact h.ended hc (fun n => ends_learned) nofun
  | failed before after c hc basis? hbasis hs' =>
    rw [hs']
    exact h.ended hc (fun n => ends_gaveUp) (not_ends_servedBy c.check.user basis?)
  | resumed before after c hc hs' =>
    rw [hs']
    refine h.same (by rw [hc, List.map_append, List.map_append]; rfl) fun call x hx => ?_
    rw [List.mem_singleton.mp hx]
    exact ends_asked
  | evicted who hs' =>
    obtain ⟨entries, hevict⟩ := evict_eq_turn s who
    rw [hs', hevict]
    refine h.same rfl fun call x hx => ?_
    rw [List.mem_singleton.mp hx]
    exact ends_evicted
  | waited later hle hs' =>
    rw [hs']
    exact h

section runs

variable {policy : CachePolicy} {circuit : BreakerConfig Span}
  {allowed : Inquiries → Inquiries → Prop}

/-- So it is in every state of a run. -/
theorem tallied_of_reachable (h : Reachable policy circuit allowed s) : Tallied s := by
  induction h with
  | start now => exact fun n => (if_neg (Nat.not_lt_zero n)).symm
  | step _ hstep _ ih => exact tallied_step ih hstep

end runs

/-- A call that was let through has had one outcome if it has ended, and none before. -/
theorem Tallied.outcomes_eq (h : Tallied s) {n : Nat} (hn : n < s.count) :
    outcomes s n = if n ∈ s.calls.map (·.number) then 0 else 1 := by
  have hsum := h n
  rw [if_pos hn] at hsum
  by_cases hmem : n ∈ s.calls.map (·.number)
  · have hpos : 0 < (s.calls.map (·.number)).count n := List.count_pos_iff.mpr hmem
    rw [if_pos hmem]
    omega
  · have hzero : (s.calls.map (·.number)).count n = 0 := List.count_eq_zero_of_not_mem hmem
    rw [if_neg hmem]
    omega

/-! ## The call that made the circuit half-open -/

/-- A call without a fresh entry that the breaker grants begins to ask the remote side. -/
theorem consult_of_granted {user : Int} {breaker : Breaker Instant}
    (hyoung : s.cache.youngEntry? s.now s.cache.policy.ttl user = none)
    (hallow : s.cache.breaker.allow s.cache.circuit s.now = (true, breaker)) :
    s.consult user = { s.turn { s.cache with breaker }
      (s.calls ++ [⟨s.count, ⟨user, 1⟩, false, s.now, s.circuit⟩]) [.asked s.count 1 user] with
        count := s.count + 1 } := by
  unfold Inquiries.consult Cache.consult
  simp only [hyoung, hallow, if_true]

/-- A call that starts leaves the circuit as it is, unless it begins to ask the remote side. -/
theorem circuit_consult_or_granted (s : Inquiries) (user : Int) :
    (s.consult user).circuit = s.circuit ∨
      ∃ breaker, s.cache.youngEntry? s.now s.cache.policy.ttl user = none ∧
        s.cache.breaker.allow s.cache.circuit s.now = (true, breaker) := by
  rcases hyoung : s.cache.youngEntry? s.now s.cache.policy.ttl user with _ | e
  · have hpermission := permission_allow s.cache.circuit s.now s.cache.breaker
    rcases hallow : s.cache.breaker.allow s.cache.circuit s.now with ⟨_ | _, breaker⟩
    · left
      rw [hallow] at hpermission
      cases hpermission with
      | refused rejected =>
        unfold Inquiries.consult Cache.consult
        simp only [hyoung, hallow, Bool.false_eq_true, if_false]
        rfl
    · exact .inr ⟨breaker, rfl, rfl⟩
  · left
    unfold Inquiries.consult Cache.consult
    simp only [hyoung]
    rfl

/-- The end of a call leaves no circuit half-open. -/
theorem halfOpen_of_noting {cfg : BreakerConfig Span} {now : Instant} {b : Breaker Instant}
    {incidents : List Incident} (h : (incidents.foldl (noting cfg now) b).circuit = .halfOpen) :
    b.circuit = .halfOpen ∧ ∀ call, ∀ x ∈ incidents, ¬ x.Ends call := by
  induction incidents generalizing b with
  | nil => exact ⟨h, nofun⟩
  | cons x incidents ih =>
    obtain ⟨hx, hrest⟩ := ih h
    have hnone : (noting cfg now b x).circuit = b.circuit ∧ ∀ call, ¬ x.Ends call := by
      cases x with
      | learned n attempt user entry => exact absurd hx nofun
      | gaveUp n => exact absurd hx (circuit_fail_ne_halfOpen cfg now b)
      | asked n attempt user => exact ⟨rfl, fun call => ends_asked⟩
      | served user entry => exact ⟨rfl, fun call => ends_served⟩
      | evicted who => exact ⟨rfl, fun call => ends_evicted⟩
    refine ⟨hnone.1.symm.trans hx, fun call y hy => ?_⟩
    rcases List.mem_cons.mp hy with rfl | hy
    · exact hnone.2 call
    · exact hrest call y hy

/-- A call is the one whose admission made the circuit half-open, which it has been since. -/
inductive Opener (policy : CachePolicy) (circuit : BreakerConfig Span) : Nat → Inquiries → Prop where
  /-- Its start has just made the circuit half-open. -/
  | admitted {s : Inquiries} (h : Reachable policy circuit Anything s) (user : Int)
      (hwas : s.circuit ≠ .halfOpen) (hnow : (s.consult user).circuit = .halfOpen) :
      Opener policy circuit s.count (s.consult user)
  /-- The circuit has stayed half-open. -/
  | kept {n : Nat} {s s' : Inquiries} (h : Opener policy circuit n s) (hstep : Step s s')
      (hnow : s'.circuit = .halfOpen) : Opener policy circuit n s'

section openers

variable {policy : CachePolicy} {circuit : BreakerConfig Span} {n : Nat}

/-- A circuit becomes half-open only by the start of a call. -/
theorem exists_opener (h : Reachable policy circuit Anything s) (hhalf : s.circuit = .halfOpen) :
    ∃ n, Opener policy circuit n s := by
  induction h with
  | start now => exact absurd hhalf nofun
  | @step s s' hreach hstep _ ih =>
    by_cases hwas : s.circuit = .halfOpen
    · obtain ⟨n, hopener⟩ := ih hwas
      exact ⟨n, hopener.kept hstep hhalf⟩
    · rcases breaker_of_step hstep with hnoted | ⟨user, rfl, -, -⟩
      · unfold Inquiries.circuit at hhalf
        rw [hnoted] at hhalf
        exact absurd (halfOpen_of_noting hhalf).1 hwas
      · exact ⟨s.count, .admitted hreach user hwas hhalf⟩

/-- A step that leaves the circuit half-open ends no call. -/
theorem exists_still (hstep : Step s s') (hnow : s'.circuit = .halfOpen) {c : Call}
    (hc : c ∈ s.calls) :
    ∃ d ∈ s'.calls, d.number = c.number := by
  cases effect_of_step hstep with
  | answered user basis? hbasis rejected hs' =>
    rw [hs']
    exact ⟨c, hc, rfl⟩
  | admitted user breaker hallow hs' =>
    rw [hs']
    exact ⟨c, List.mem_append_left _ hc, rfl⟩
  | rested before after e he hs' =>
    obtain ⟨d, hd, hnumber, -⟩ :=
      exists_replaced he (d := { e with resting := true }) rfl rfl rfl c hc
    rw [hs']
    exact ⟨d, hd, hnumber⟩
  | succeeded before after e he hasking found hs' =>
    rw [hs'] at hnow
    exact absurd hnow nofun
  | failed before after e he basis? hbasis hs' =>
    rw [hs'] at hnow
    exact absurd hnow (circuit_fail_ne_halfOpen s.cache.circuit s.now s.cache.breaker)
  | resumed before after e he hs' =>
    obtain ⟨d, hd, hnumber, -⟩ := exists_replaced he
      (d := { e with check := { e.check with attempt := e.check.attempt + 1 }, resting := false })
      rfl rfl rfl c hc
    rw [hs']
    exact ⟨d, hd, hnumber⟩
  | evicted who hs' =>
    obtain ⟨entries, hevict⟩ := evict_eq_turn s who
    rw [hs', hevict]
    exact ⟨c, hc, rfl⟩
  | waited later hle hs' =>
    rw [hs']
    exact ⟨c, hc, rfl⟩

/-- The call that made the circuit half-open is under way as long as it is. -/
theorem opener_under_way (h : Opener policy circuit n s) : ∃ c ∈ s.calls, c.number = n := by
  induction h with
  | @admitted s h user hwas hnow =>
    rcases circuit_consult_or_granted s user with hsame | ⟨breaker, hyoung, hallow⟩
    · exact absurd (hsame.symm.trans hnow) hwas
    · rw [consult_of_granted hyoung hallow]
      exact ⟨_, List.mem_append_right _ List.mem_cons_self, rfl⟩
  | @kept n s s' h hstep hnow ih =>
    obtain ⟨c, hc, hnumber⟩ := ih
    obtain ⟨d, hd, hsame⟩ := exists_still hstep hnow hc
    exact ⟨d, hd, hsame.trans hnumber⟩

/-- A call that starts reaches the remote side: it is let through, and begins to ask. -/
def Reaches (s s' : Inquiries) (user : Int) : Prop :=
  .asked s.count 1 user ∈ news s s' ∧
    ∃ c ∈ s'.calls, c.number = s.count ∧ c.check = ⟨user, 1⟩ ∧ c.resting = false

/-- When the recovery time of an open circuit has passed, a call without a fresh entry reaches the
remote side. -/
theorem reaches_of_recovered (hopen : s.circuit = .open) {user : Int}
    (hyoung : s.cache.youngEntry? s.now s.cache.policy.ttl user = none)
    (hrecovered : s.cache.circuit.recovery ≤ s.now - s.cache.breaker.openedAt) :
    Reaches s (s.consult user) user := by
  have hallow : s.cache.breaker.allow s.cache.circuit s.now =
      (true, { s.cache.breaker with circuit := .halfOpen, trial := true }) := by
    have hcircuit : s.cache.breaker.circuit = .open := hopen
    unfold Breaker.allow
    simp only [hcircuit, hrecovered, if_true]
  rw [consult_of_granted hyoung hallow]
  refine ⟨?_, _, List.mem_append_right _ List.mem_cons_self, rfl, rfl, rfl⟩
  rw [news_of_history rfl]
  exact List.mem_cons_self

/-- The circuit is never wedged half-open.  In every run, a call that was let through is under way
or has had exactly one outcome, which is what the breaker was told; while the circuit is half-open,
the call whose admission made it so is under way; so where no call is under way it is closed or
open, and if it is open, the first call without a fresh entry reaches the remote side that comes
when the recovery time has passed since the circuit opened last. -/
theorem never_wedged (h : Reachable policy circuit Anything s) :
    (∀ n < s.count, outcomes s n = if n ∈ s.calls.map (·.number) then 0 else 1) ∧
    (∀ s', Step s s' → Told s s') ∧
    (s.circuit = .halfOpen → ∃ n, Opener policy circuit n s) ∧
    (∀ n, Opener policy circuit n s → ∃ c ∈ s.calls, c.number = n) ∧
    (s.calls = [] → s.circuit = .closed ∨ s.circuit = .open) ∧
    (∀ s', Step s s' → s'.cache.breaker.openedAt =
      if s'.circuit = .open ∧ s.circuit ≠ .open then s.now else s.cache.breaker.openedAt) ∧
    (s.circuit = .open → s.cache.circuit.recovery ≤ s.now - s.cache.breaker.openedAt →
      ∀ user, s.cache.youngEntry? s.now s.cache.policy.ttl user = none →
        Reaches s (s.consult user) user) := by
  refine ⟨fun n hn => (tallied_of_reachable h).outcomes_eq hn, fun s' => breaker_of_step,
    exists_opener h, fun n => opener_under_way, fun hnone => ?_, fun s' => openedAt_of_step,
    fun hopen hrecovered user hyoung => reaches_of_recovered hopen hyoung hrecovered⟩
  cases hcircuit : s.circuit with
  | closed => exact .inl rfl
  | «open» => exact .inr rfl
  | halfOpen =>
    obtain ⟨n, hopener⟩ := exists_opener h hcircuit
    obtain ⟨c, hc, -⟩ := opener_under_way hopener
    rw [hnone] at hc
    exact absurd hc List.not_mem_nil

end openers

/-! ## A trial that is cancelled -/

/-- The first call opens the circuit, and the trial is cancelled while it asks.  Then the recovery
time passes again. -/
def cancelledRun : List Move :=
  [.consult 1, .settle 0 (.error .timedOut), .pass (.ofSeconds 30), .consult 2,
    .settle 0 (.error (.cancelled "")), .pass (.ofSeconds 30)]

/-- Both calls have had one outcome, and the next one is let through. -/
theorem never_wedged_of_cancelledRun :
    ∃ s, Reachable askingOnce tripsAtOnce Anything s ∧ s.count = 2 ∧ s.calls = [] ∧
      s.circuit = .open ∧ outcomes s 0 = 1 ∧ outcomes s 1 = 1 ∧ Reaches s (s.consult 3) 3 := by
  have hplays : (plays Anything (start askingOnce tripsAtOnce 0) cancelledRun).map (fun s =>
      (s.count, s.calls.map (·.number), s.circuit,
        decide (s.cache.circuit.recovery ≤ s.now - s.cache.breaker.openedAt),
        s.cache.youngEntry? s.now s.cache.policy.ttl 3)) =
      some (2, [], .open, true, none) := by
    decide +kernel
  obtain ⟨s, hs, hseen⟩ := Option.map_eq_some_iff.mp hplays
  simp only [Prod.mk.injEq, decide_eq_true_eq] at hseen
  obtain ⟨hcount, hnumbers, hopen, hrecovered, hyoung⟩ := hseen
  have hcalls : s.calls = [] := List.map_eq_nil_iff.mp hnumbers
  have hreach := reachable_of_plays (.start 0) hs
  obtain ⟨hone, -, -, -, -, -, hreaches⟩ := never_wedged hreach
  have hended : ∀ n < 2, outcomes s n = 1 := by
    intro n hn
    rw [hone n (by omega), hcalls]
    rfl
  exact ⟨s, hreach, hcount, hcalls, hopen, hended 0 (by decide), hended 1 (by decide),
    hreaches hopen hrecovered 3 hyoung⟩

end Existence

end EventRelay
