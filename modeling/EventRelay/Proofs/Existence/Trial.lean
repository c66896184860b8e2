import EventRelay.Proofs.Existence.Play

/-!
# What closes a circuit

A circuit that is open lets one trial call through when its recovery time has passed, and the
outcome of the trial decides.  The breaker does not know whose outcome it takes note of, though: a
call that was let through before the circuit opened may end later, and a success of it closes the
circuit at once, a failure ends the trial of another call.

* `Tries`: a call is the trial of the circuit as it opened last.
* `openedAt_of_step`: the breaker keeps the time at which the circuit opened last.
* `late_or_tries`: while a circuit is not closed, the calls under way are its trial, or were let
  through before it opened.
* `moved_of_step`: while it is not closed, nothing but the outcome of a call under way closes it, or
  ends its trial.
* `trial_decides`: the main statement, for runs in which the outcomes of late calls do not count;
  `late_success_closes`: a run in which one does.
-/

namespace EventRelay

namespace Existence

variable {s s' : Inquiries}

/-! ## Calls and their outcomes -/

/-- What a step adds to the history. -/
def news (s s' : Inquiries) : List Incident := s'.history.drop s.history.length

/-- A call ends with success in a step. -/
def Succeeds (s s' : Inquiries) (c : Call) : Prop :=
  ∃ x ∈ news s s', x.success? = some c.number

/-- A call fails or is cancelled in a step. -/
def Fails (s s' : Inquiries) (c : Call) : Prop :=
  ∃ x ∈ news s s', x.failure? = some c.number

instance (s s' : Inquiries) (c : Call) : Decidable (Succeeds s s' c) :=
  inferInstanceAs (Decidable (∃ x ∈ news s s', x.success? = some c.number))

instance (s s' : Inquiries) (c : Call) : Decidable (Fails s s' c) :=
  inferInstanceAs (Decidable (∃ x ∈ news s s', x.failure? = some c.number))

/-- A call was let through as the trial after the circuit opened last: it found the circuit open,
and the recovery time had passed since then. -/
def Tries (s : Inquiries) (c : Call) : Prop :=
  s.watershed ≤ c.number ∧ c.found = .open ∧
    s.cache.circuit.recovery ≤ c.admittedAt - s.cache.breaker.openedAt

/-- No outcome of a call that was let through before the circuit opened counts in a step: none
succeeds while the circuit is open or half-open, and none fails while it is half-open. -/
def NoLateOutcome (s s' : Inquiries) : Prop :=
  ∀ c ∈ s.calls, c.number < s.watershed →
    (Succeeds s s' c → s.circuit = .closed) ∧ (Fails s s' c → s.circuit ≠ .halfOpen)

instance : DecidableRel NoLateOutcome := fun s s' =>
  inferInstanceAs (Decidable (∀ c ∈ s.calls, c.number < s.watershed →
    (Succeeds s s' c → s.circuit = .closed) ∧ (Fails s s' c → s.circuit ≠ .halfOpen)))

section turns

variable (cache : Cache) (calls : List Call) {incidents : List Incident} {c : Call} {x : Incident}

/-- The news of a turn are its incidents. -/
theorem news_turn (s : Inquiries) (incidents : List Incident) :
    news s (s.turn cache calls incidents) = incidents :=
  List.drop_left

/-- A turn with the success of a call is one in which it succeeds. -/
theorem succeeds_turn (hx : x ∈ incidents) (hsuccess : x.success? = some c.number) :
    Succeeds s (s.turn cache calls incidents) c := by
  unfold Succeeds
  rw [news_turn]
  exact ⟨x, hx, hsuccess⟩

/-- A turn with the failure of a call is one in which it fails. -/
theorem fails_turn (hx : x ∈ incidents) (hfailure : x.failure? = some c.number) :
    Fails s (s.turn cache calls incidents) c := by
  unfold Fails
  rw [news_turn]
  exact ⟨x, hx, hfailure⟩

end turns

/-! ## When the circuit opened -/

/-- The breaker keeps the time of the last opening: a step that opens the circuit sets it, and no
other step does. -/
theorem openedAt_of_step (hstep : Step s s') :
    s'.cache.breaker.openedAt =
      if s'.circuit = .open ∧ s.circuit ≠ .open then s.now else s.cache.breaker.openedAt := by
  have hsame : s'.circuit = s.circuit →
      s'.cache.breaker.openedAt = s.cache.breaker.openedAt →
      s'.cache.breaker.openedAt =
        if s'.circuit = .open ∧ s.circuit ≠ .open then s.now else s.cache.breaker.openedAt := by
    intro hcircuit hat
    rw [if_neg, hat]
    rintro ⟨hopen, hne⟩
    exact hne (hcircuit.symm.trans hopen)
  cases effect_of_step hstep with
  | answered user basis? hbasis rejected hs' =>
    subst hs'
    exact hsame rfl rfl
  | admitted user breaker hallow hs' =>
    subst hs'
    cases hallow with
    | granted hclosed => exact hsame rfl rfl
    | trial hopen hwaited => exact (if_neg fun hnow => absurd hopen hnow.2).symm
    | next hhalf hnone => exact hsame rfl rfl
  | rested before after c hc hs' =>
    subst hs'
    exact hsame rfl rfl
  | succeeded before after c hc hasking found hs' =>
    subst hs'
    exact (if_neg fun hnow => absurd hnow.1 nofun).symm
  | failed before after c hc basis? hbasis hs' =>
    subst hs'
    exact openedAt_fail s.cache.circuit s.now s.cache.breaker
  | resumed before after c hc hs' =>
    subst hs'
    exact hsame rfl rfl
  | evicted who hs' =>
    obtain ⟨entries, hevict⟩ := evict_eq_turn s who
    rw [hevict] at hs'
    subst hs'
    exact hsame rfl rfl
  | waited later hle hs' =>
    subst hs'
    exact hsame rfl rfl

/-! ## The calls of a circuit that is not closed -/

/-- The bookkeeping of a circuit: when it opened all calls under way had been let through, and when
it is half-open its trial is the only call that was let through since. -/
structure Watched (s : Inquiries) : Prop where
  /-- No call was let through since the circuit opened. -/
  opened : s.circuit = .open → s.watershed = s.count
  /-- A trial is under way. -/
  busy : s.circuit = .halfOpen → s.cache.breaker.trial = true
  /-- It is the only call since the circuit opened. -/
  trial : s.circuit = .halfOpen → s.count = s.watershed + 1 ∧
    ∃ c ∈ s.calls, c.number = s.watershed ∧ Tries s c

/-- Steps that leave circuit, calls and their numbers as they are leave the bookkeeping so too. -/
theorem Watched.same (h : Watched s) {cache : Cache} {calls : List Call}
    {incidents : List Incident} (hcircuit : cache.breaker.circuit = s.circuit)
    (hbusy : cache.breaker.trial = s.cache.breaker.trial)
    (hopened : cache.breaker.openedAt = s.cache.breaker.openedAt)
    (hcfg : cache.circuit = s.cache.circuit)
    (hcalls : ∀ c ∈ s.calls, ∃ d ∈ calls, d.number = c.number ∧ d.found = c.found ∧
      d.admittedAt = c.admittedAt) : Watched (s.turn cache calls incidents) := by
  have hwatershed : (s.turn cache calls incidents).watershed = s.watershed :=
    turn_watershed s cache calls incidents fun hopen => hcircuit.symm.trans hopen
  have hsame : (s.turn cache calls incidents).circuit = s.circuit := hcircuit
  constructor
  · intro hopen
    rw [hsame] at hopen
    rw [hwatershed, turn_count]
    exact h.opened hopen
  · intro hhalf
    rw [hsame] at hhalf
    rw [turn_cache, hbusy]
    exact h.busy hhalf
  · intro hhalf
    rw [hsame] at hhalf
    obtain ⟨hcount, c, hc, hnumber, htries⟩ := h.trial hhalf
    obtain ⟨d, hd, hdn, hdf, hda⟩ := hcalls c hc
    refine ⟨by rw [hwatershed, turn_count, hcount], d, hd, by rw [hwatershed, hdn, hnumber], ?_⟩
    unfold Tries at htries ⊢
    rw [hwatershed, turn_cache, hcfg, hopened, hdn, hdf, hda]
    exact htries

/-- A call that goes on stands for what it was. -/
theorem exists_replaced {before after : List Call} {c d : Call}
    (hc : s.calls = before ++ c :: after) (hnumber : d.number = c.number) (hfound : d.found = c.found)
    (hat : d.admittedAt = c.admittedAt) : ∀ e ∈ s.calls, ∃ f ∈ before ++ d :: after,
      f.number = e.number ∧ f.found = e.found ∧ f.admittedAt = e.admittedAt := by
  intro e he
  rw [hc] at he
  rcases mem_of_mem_replace rfl he with he | rfl
  · exact ⟨e, he, rfl, rfl, rfl⟩
  · exact ⟨d, mem_of_split rfl, hnumber, hfound, hat⟩

/-- What a call has become was there before. -/
theorem exists_original {before after : List Call} {c d : Call}
    (hc : s.calls = before ++ c :: after) (hnumber : d.number = c.number)
    (hfound : d.found = c.found) :
    ∀ e ∈ before ++ d :: after, ∃ f ∈ s.calls, e.number = f.number ∧ e.found = f.found := by
  intro e he
  rcases mem_of_mem_replace hc he with he | rfl
  · exact ⟨e, he, rfl, rfl⟩
  · exact ⟨c, mem_of_split hc, hnumber, hfound⟩

/-- A call that is let through is the trial of a circuit that was open for long enough, or finds the
circuit closed. -/
theorem Watched.admit (h : Watched s) {user : Int} {breaker : Breaker Instant}
    (hallow : Permission s.cache.circuit s.now s.cache.breaker (true, breaker)) :
    Watched { s.turn { s.cache with breaker }
      (s.calls ++ [⟨s.count, ⟨user, 1⟩, false, s.now, s.circuit⟩]) [.asked s.count 1 user] with
        count := s.count + 1 } := by
  cases hallow with
  | granted hclosed =>
    refine ⟨fun hopen => ?_, fun hhalf => ?_, fun hhalf => ?_⟩
    · exact absurd (hclosed.symm.trans hopen) nofun
    · exact absurd (hclosed.symm.trans hhalf) nofun
    · exact absurd (hclosed.symm.trans hhalf) nofun
  | trial hopen hwaited =>
    have hwatershed := turn_watershed s
      { s.cache with breaker := { s.cache.breaker with circuit := .halfOpen, trial := true } }
      (s.calls ++ [⟨s.count, ⟨user, 1⟩, false, s.now, s.circuit⟩]) [.asked s.count 1 user] nofun
    have hlast := h.opened hopen
    refine ⟨nofun, fun _ => rfl, fun _ => ⟨?_, _,
      List.mem_append_right _ List.mem_cons_self, ?_, ?_, hopen, hwaited⟩⟩
    · show s.count + 1 = Inquiries.watershed _ + 1
      rw [hwatershed, hlast]
    · exact (hwatershed.trans hlast).symm
    · exact Nat.le_of_eq (hwatershed.trans hlast)
  | next hhalf hnone =>
    rw [h.busy hhalf] at hnone
    cases hnone

/-- After a failure the circuit is closed, or no call was let through since it opened. -/
theorem Watched.fail (h : Watched s) (calls : List Call) (incidents : List Incident) :
    Watched (s.turn { s.cache with
      breaker := (s.cache.breaker.fail s.cache.circuit s.now).1 } calls incidents) := by
  have hnot := circuit_fail_ne_halfOpen s.cache.circuit s.now s.cache.breaker
  refine ⟨fun hnow => ?_, fun hnow => absurd hnow hnot, fun hnow => absurd hnow hnot⟩
  by_cases hwas : s.circuit = .open
  · rw [turn_watershed s _ calls incidents fun _ => hwas]
    exact h.opened hwas
  · unfold Inquiries.turn
    exact if_pos ⟨hnow, hwas⟩

/-- Every step keeps the bookkeeping of the circuit right. -/
theorem watched_step (h : Watched s) (hstep : Step s s') : Watched s' := by
  have hkept : ∀ c ∈ s.calls, ∃ d ∈ s.calls, d.number = c.number ∧ d.found = c.found ∧
      d.admittedAt = c.admittedAt := fun c hc => ⟨c, hc, rfl, rfl, rfl⟩
  cases effect_of_step hstep with
  | answered user basis? hbasis rejected hs' =>
    rw [hs']
    exact h.same rfl rfl rfl rfl hkept
  | admitted user breaker hallow hs' =>
    rw [hs']
    exact h.admit hallow
  | rested before after c hc hs' =>
    rw [hs']
    exact h.same rfl rfl rfl rfl (exists_replaced hc rfl rfl rfl)
  | succeeded before after c hc hasking found hs' =>
    rw [hs']
    exact ⟨nofun, nofun, nofun⟩
  | failed before after c hc basis? hbasis hs' =>
    rw [hs']
    exact h.fail _ _
  | resumed before after c hc hs' =>
    rw [hs']
    exact h.same rfl rfl rfl rfl (exists_replaced hc rfl rfl rfl)
  | evicted who hs' =>
    obtain ⟨entries, hevict⟩ := evict_eq_turn s who
    rw [hs', hevict]
    exact h.same rfl rfl rfl rfl hkept
  | waited later hle hs' =>
    rw [hs']
    exact ⟨h.opened, h.busy, h.trial⟩

section runs

variable {policy : CachePolicy} {circuit : BreakerConfig Span}
  {allowed : Inquiries → Inquiries → Prop}

/-- It is right in every state of a run. -/
theorem watched_of_reachable (h : Reachable policy circuit allowed s) : Watched s := by
  induction h with
  | start now => exact ⟨nofun, nofun, nofun⟩
  | step _ hstep _ ih => exact watched_step ih hstep

end runs

/-- While the circuit is not closed, a call under way was let through before it opened, or is its
trial. -/
theorem late_or_tries (hnumbered : Numbered s) (h : Watched s) (htripped : s.circuit ≠ .closed)
    {c : Call} (hc : c ∈ s.calls) :
    c.number < s.watershed ∨ s.circuit = .halfOpen ∧ c.number = s.watershed ∧ Tries s c := by
  have hgiven := hnumbered.given c hc
  cases hcircuit : s.circuit with
  | closed => exact absurd hcircuit htripped
  | «open» =>
    rw [h.opened hcircuit]
    exact .inl hgiven
  | halfOpen =>
    obtain ⟨hcount, d, hd, hnumber, htries⟩ := h.trial hcircuit
    rw [hcount] at hgiven
    rcases Nat.lt_succ_iff_lt_or_eq.mp hgiven with hlt | heq
    · exact .inl hlt
    · rw [hnumbered.eq_of_number hc hd (heq.trans hnumber.symm)]
      exact .inr ⟨rfl, hnumber, htries⟩

/-- A circuit that is not closed is closed by the success of a call under way and by nothing else,
and while it is half-open only the outcome of a call under way changes it. -/
theorem moved_of_step (h : Watched s) (hstep : Step s s') (htripped : s.circuit ≠ .closed)
    (hmoved : s'.circuit ≠ s.circuit) :
    (s.circuit = .open ∧ s'.circuit = .halfOpen) ∨
      ∃ c ∈ s.calls, Succeeds s s' c ∨ Fails s s' c ∧ s.circuit = .halfOpen ∧ s'.circuit = .open := by
  cases effect_of_step hstep with
  | answered user basis? hbasis rejected hs' =>
    rw [hs'] at hmoved
    exact absurd rfl hmoved
  | admitted user breaker hallow hs' =>
    rw [hs'] at hmoved ⊢
    cases hallow with
    | granted hclosed => exact absurd hclosed htripped
    | trial hopen hwaited => exact .inl ⟨hopen, rfl⟩
    | next hhalf hnone =>
      rw [h.busy hhalf] at hnone
      cases hnone
  | rested before after c hc hs' =>
    rw [hs'] at hmoved
    exact absurd rfl hmoved
  | succeeded before after c hc hasking found hs' =>
    refine .inr ⟨c, mem_of_split hc, .inl ?_⟩
    rw [hs']
    exact succeeds_turn _ _ List.mem_cons_self rfl
  | failed before after c hc basis? hbasis hs' =>
    obtain ⟨hopen, hhalf, -⟩ := circuit_fail s.cache.circuit s.now s.cache.breaker
    have hwas : s.circuit = .halfOpen := by
      cases hcircuit : s.circuit with
      | closed => exact absurd hcircuit htripped
      | «open» =>
        rw [hs', hcircuit] at hmoved
        exact absurd (hopen hcircuit) hmoved
      | halfOpen => rfl
    refine .inr ⟨c, mem_of_split hc, .inr ⟨?_, hwas, ?_⟩⟩
    · rw [hs']
      exact fails_turn _ _ List.mem_cons_self rfl
    · rw [hs']
      exact hhalf hwas
  | resumed before after c hc hs' =>
    rw [hs'] at hmoved
    exact absurd rfl hmoved
  | evicted who hs' =>
    obtain ⟨entries, hevict⟩ := evict_eq_turn s who
    rw [hs', hevict] at hmoved
    exact absurd rfl hmoved
  | waited later hle hs' =>
    rw [hs'] at hmoved
    exact absurd rfl hmoved

/-! ## Where late outcomes do not count -/

/-- The only call under way that did not find the circuit closed is the trial of a half-open one. -/
def Lone (s : Inquiries) : Prop :=
  ∀ c ∈ s.calls, c.found ≠ .closed → s.circuit = .halfOpen ∧ c.number = s.watershed

/-- The trial stays the only call as long as no other one is let through. -/
theorem Lone.same (h : Lone s) {cache : Cache} {calls : List Call} {incidents : List Incident}
    (hcircuit : cache.breaker.circuit = s.circuit)
    (hcalls : ∀ d ∈ calls, ∃ c ∈ s.calls, d.number = c.number ∧ d.found = c.found) :
    Lone (s.turn cache calls incidents) := by
  have hwatershed : (s.turn cache calls incidents).watershed = s.watershed :=
    turn_watershed s cache calls incidents fun hopen => hcircuit.symm.trans hopen
  intro d hd hfound
  obtain ⟨c, hc, hnumber, hsame⟩ := hcalls d hd
  rw [hsame] at hfound
  obtain ⟨hhalf, hlast⟩ := h c hc hfound
  exact ⟨hcircuit.trans hhalf, by rw [hnumber, hwatershed, hlast]⟩

/-- A call that is let through finds the circuit closed, or is the trial. -/
theorem Lone.admit (h : Lone s) (hwatched : Watched s) {user : Int} {breaker : Breaker Instant}
    (hallow : Permission s.cache.circuit s.now s.cache.breaker (true, breaker)) :
    Lone { s.turn { s.cache with breaker }
      (s.calls ++ [⟨s.count, ⟨user, 1⟩, false, s.now, s.circuit⟩]) [.asked s.count 1 user] with
        count := s.count + 1 } := by
  intro c hc hfound
  cases hallow with
  | granted hclosed =>
    rcases List.mem_append.mp hc with hc | hc
    · exact absurd (hclosed.symm.trans (h c hc hfound).1) nofun
    · rw [List.mem_singleton.mp hc] at hfound
      exact absurd hclosed hfound
  | trial hopen hwaited =>
    rcases List.mem_append.mp hc with hc | hc
    · exact absurd (hopen.symm.trans (h c hc hfound).1) nofun
    · have hwatershed := turn_watershed s
        { s.cache with breaker := { s.cache.breaker with circuit := .halfOpen, trial := true } }
        (s.calls ++ [⟨s.count, ⟨user, 1⟩, false, s.now, s.circuit⟩]) [.asked s.count 1 user] nofun
      rw [List.mem_singleton.mp hc]
      exact ⟨rfl, (hwatershed.trans (hwatched.opened hopen)).symm⟩
  | next hhalf hnone =>
    rw [hwatched.busy hhalf] at hnone
    cases hnone

/-- When a call ends, no other one is left that did not find the circuit closed. -/
theorem Lone.others (h : Lone s) (hnumbered : Numbered s) (hwatched : Watched s)
    (hallowed : NoLateOutcome s s') {before after : List Call} {c : Call}
    (hc : s.calls = before ++ c :: after) (hends : Succeeds s s' c ∨ Fails s s' c) {d : Call}
    (hd : d ∈ before ++ after) : d.found = .closed := by
  by_contra hfound
  have hmem := mem_of_split hc
  obtain ⟨hhalf, hlast⟩ := h d (mem_of_mem_remove hc hd) hfound
  have htripped : s.circuit ≠ .closed := by
    rw [hhalf]
    exact nofun
  rcases late_or_tries hnumbered hwatched htripped hmem with hlate | ⟨-, hnumber, -⟩
  · obtain ⟨hsuccess, hfailure⟩ := hallowed c hmem hlate
    rcases hends with hends | hends
    · exact htripped (hsuccess hends)
    · exact hfailure hends hhalf
  · exact hnumbered.ne_of_other hc hd (hlast.trans hnumber.symm)

/-- A step without a late outcome keeps the trial the only call. -/
theorem lone_step (hnumbered : Numbered s) (hwatched : Watched s) (h : Lone s)
    (hstep : Step s s') (hallowed : NoLateOutcome s s') : Lone s' := by
  have hkept : ∀ d ∈ s.calls, ∃ c ∈ s.calls, d.number = c.number ∧ d.found = c.found :=
    fun d hd => ⟨d, hd, rfl, rfl⟩
  cases effect_of_step hstep with
  | answered user basis? hbasis rejected hs' =>
    rw [hs']
    exact h.same rfl hkept
  | admitted user breaker hallow hs' =>
    rw [hs']
    exact h.admit hwatched hallow
  | rested before after c hc hs' =>
    rw [hs']
    exact h.same rfl (exists_original hc rfl rfl)
  | succeeded before after c hc hasking found hs' =>
    have hends : Succeeds s s' c := by
      rw [hs']
      exact succeeds_turn _ _ List.mem_cons_self rfl
    rw [hs']
    exact fun d hd hfound =>
      absurd (h.others hnumbered hwatched hallowed hc (.inl hends) hd) hfound
  | failed before after c hc basis? hbasis hs' =>
    have hends : Fails s s' c := by
      rw [hs']
      exact fails_turn _ _ List.mem_cons_self rfl
    rw [hs']
    exact fun d hd hfound =>
      absurd (h.others hnumbered hwatched hallowed hc (.inr hends) hd) hfound
  | resumed before after c hc hs' =>
    rw [hs']
    exact h.same rfl (exists_original hc rfl rfl)
  | evicted who hs' =>
    obtain ⟨entries, hevict⟩ := evict_eq_turn s who
    rw [hs', hevict]
    exact h.same rfl hkept
  | waited later hle hs' =>
    rw [hs']
    exact h

section orderly

variable {policy : CachePolicy} {circuit : BreakerConfig Span}

/-- In runs without late outcomes it is so in every state. -/
theorem lone_of_reachable (h : Reachable policy circuit NoLateOutcome s) : Lone s := by
  induction h with
  | start now => exact fun c hc => absurd hc List.not_mem_nil
  | step hreach hstep hallowed ih =>
    exact lone_step (numbered_of_reachable hreach) (watched_of_reachable hreach) ih hstep hallowed

/-- Only the outcome of the trial moves a tripped circuit.  In every run in which no late outcome
counts, a circuit that is open or half-open is closed only by the success of a call that was let
through as its trial, at least the recovery time after it opened; while it is half-open nothing but
the outcome of that call changes it; and of the calls under way at most one was let through since
the circuit was closed last. -/
theorem trial_decides (h : Reachable policy circuit NoLateOutcome s) :
    (∀ s', Step s s' → NoLateOutcome s s' → s.circuit ≠ .closed → s'.circuit = .closed →
      ∃ c ∈ s.calls, Tries s c ∧ Succeeds s s' c) ∧
    (∀ s', Step s s' → NoLateOutcome s s' → s.circuit = .halfOpen → s'.circuit ≠ .halfOpen →
      ∃ c ∈ s.calls, Tries s c ∧ (Succeeds s s' c ∨ Fails s s' c)) ∧
    ∀ c ∈ s.calls, ∀ d ∈ s.calls, c.found ≠ .closed → d.found ≠ .closed → c = d := by
  have hnumbered := numbered_of_reachable h
  have hwatched := watched_of_reachable h
  have hlone := lone_of_reachable h
  refine ⟨?_, ?_, ?_⟩
  · intro s' hstep hallowed htripped hclosed
    have hmoved : s'.circuit ≠ s.circuit := fun hsame => htripped (hsame.symm.trans hclosed)
    rcases moved_of_step hwatched hstep htripped hmoved with ⟨-, hhalf⟩ | ⟨c, hc, hends⟩
    · rw [hclosed] at hhalf
      cases hhalf
    · rcases hends with hsuccess | ⟨-, -, hopen⟩
      · rcases late_or_tries hnumbered hwatched htripped hc with hlate | ⟨-, -, htries⟩
        · exact absurd ((hallowed c hc hlate).1 hsuccess) htripped
        · exact ⟨c, hc, htries, hsuccess⟩
      · rw [hclosed] at hopen
        cases hopen
  · intro s' hstep hallowed hhalf hleft
    have htripped : s.circuit ≠ .closed := by
      rw [hhalf]
      exact nofun
    have hmoved : s'.circuit ≠ s.circuit := by
      rw [hhalf]
      exact hleft
    rcases moved_of_step hwatched hstep htripped hmoved with ⟨hopen, -⟩ | ⟨c, hc, hends⟩
    · rw [hhalf] at hopen
      cases hopen
    · rcases late_or_tries hnumbered hwatched htripped hc with hlate | ⟨-, -, htries⟩
      · obtain ⟨hsuccess, hfailure⟩ := hallowed c hc hlate
        rcases hends with hends | ⟨hends, -⟩
        · exact absurd (hsuccess hends) htripped
        · exact absurd hhalf (hfailure hends)
      · exact ⟨c, hc, htries, hends.imp_right fun hfails => hfails.1⟩
  · intro c hc d hd hfound hfound'
    have hnumber := (hlone c hc hfound).2
    have hnumber' := (hlone d hd hfound').2
    exact hnumbered.eq_of_number hc hd (hnumber.trans hnumber'.symm)

end orderly

/-! ## Two runs -/

/-- Two calls are under way, the second one fails and opens the circuit, and the first one fails
too.  When the recovery time has passed a trial is let through. -/
def recoveredRun : List Move :=
  [.consult 1, .consult 2, .settle 1 (.error .timedOut), .consult 3, .pass (.ofSeconds 5),
    .settle 0 (.error .timedOut), .pass (.ofSeconds 25), .consult 4]

/-- The circuit closes with the success of the trial. -/
theorem trial_decides_of_recoveredRun :
    ∃ s s', Reachable askingOnce tripsAtOnce NoLateOutcome s ∧ Step s s' ∧ NoLateOutcome s s' ∧
      s.circuit = .halfOpen ∧ s'.circuit = .closed ∧
      ∃ c ∈ s.calls, c.number = 2 ∧ Tries s c ∧ Succeeds s s' c := by
  have hplays : ((plays NoLateOutcome (start askingOnce tripsAtOnce 0) recoveredRun).bind fun s =>
      (play s (.settle 0 (.ok true))).map fun s' =>
        (decide (NoLateOutcome s s'), s.circuit, s'.circuit, s.calls.map (·.number))) =
      some (true, .halfOpen, .closed, [2]) := by
    decide +kernel
  obtain ⟨s, hs, hmap⟩ := Option.bind_eq_some_iff.mp hplays
  obtain ⟨s', hs', hseen⟩ := Option.map_eq_some_iff.mp hmap
  simp only [Prod.mk.injEq, decide_eq_true_eq] at hseen
  obtain ⟨hallowed, hhalf, hclosed, hnumbers⟩ := hseen
  have hreach := reachable_of_plays (.start 0) hs
  have hstep := step_of_play hs'
  have htripped : s.circuit ≠ .closed := by
    rw [hhalf]
    exact nofun
  obtain ⟨c, hc, htries, hsuccess⟩ :=
    (trial_decides hreach).1 s' hstep hallowed htripped hclosed
  have hnumber : c.number ∈ s.calls.map (·.number) := List.mem_map_of_mem hc
  rw [hnumbers, List.mem_singleton] at hnumber
  exact ⟨s, s', hreach, hstep, hallowed, hhalf, hclosed, c, hc, hnumber, htries, hsuccess⟩

/-- Two calls are under way, and the second one fails and opens the circuit. -/
def reopenedRun : List Move :=
  [.consult 1, .consult 2, .settle 1 (.error .timedOut), .pass (.ofSeconds 10)]

/-- The success of a call that was let through before the circuit opened closes it, though its
recovery time has not passed and no trial was let through. -/
theorem late_success_closes :
    ∃ s s', Reachable askingOnce tripsAtOnce Anything s ∧ Step s s' ∧ s.circuit = .open ∧
      s'.circuit = .closed ∧
      s.now - s.cache.breaker.openedAt < s.cache.circuit.recovery ∧
      ¬ ∃ c ∈ s.calls, Tries s c ∧ Succeeds s s' c := by
  have hplays : ((plays Anything (start askingOnce tripsAtOnce 0) reopenedRun).bind fun s =>
      (play s (.settle 0 (.ok true))).map fun s' =>
        (s.circuit, s'.circuit, s.calls.map (·.found),
          decide (s.now - s.cache.breaker.openedAt < s.cache.circuit.recovery))) =
      some (.open, .closed, [.closed], true) := by
    decide +kernel
  obtain ⟨s, hs, hmap⟩ := Option.bind_eq_some_iff.mp hplays
  obtain ⟨s', hs', hseen⟩ := Option.map_eq_some_iff.mp hmap
  simp only [Prod.mk.injEq, decide_eq_true_eq] at hseen
  obtain ⟨hopen, hclosed, hfound, hearly⟩ := hseen
  refine ⟨s, s', reachable_of_plays (.start 0) hs, step_of_play hs', hopen, hclosed, hearly, ?_⟩
  rintro ⟨c, hc, ⟨-, htrial, -⟩, -⟩
  have hmem : c.found ∈ s.calls.map (·.found) := List.mem_map_of_mem hc
  rw [hfound, List.mem_singleton, htrial] at hmem
  cases hmem

end Existence

end EventRelay
