import EventRelay.Simulation.Scheduler

/-!
# What a plan does by itself

A plan that starts and cancels nothing is followed from its first step to its last, and only a wait
hands it over to the rest of the world.  `Runs` says with which result and in which world it ends,
whatever its waits come to; a relation says what they may come to.

* `runs_whenDone`: one plan after another.
* `exists_runs`: a plan runs to some end.
* `runs_updateWith_bind`, `runs_pause`: the small ones.
* `Scene.runs_of_awaitEnd`: what the scheduler makes of a plan that has a scene for itself is such a
  run, in which time passes and nothing else happens.
-/

namespace EventRelay.Simulation

namespace Plan

variable {α β : Type}

/-- What a wait may come to: what it is for, the world before it, its response, the world after. -/
abbrev Meanwhile : Type := Wait → World → Except Failure Unit → World → Prop

/-- In this world the plan may run to this result and this world. -/
def Runs (meanwhile : Meanwhile) : Plan α → World → Except Failure α → World → Prop
  | done result, w, r, w' => r = result ∧ w' = w
  | look next, w, r, w' => Runs meanwhile (next w) w r w'
  | change f next, w, r, w' => Runs meanwhile next (f w) r w'
  | wait what next, w, r, w' =>
    ∃ response w₁, meanwhile what w response w₁ ∧ Runs meanwhile (next response) w₁ r w'
  | start _ _, _, _, _ => False
  | cancel _ _, _, _, _ => False
  | failure _ _, _, _, _ => False

variable {meanwhile : Meanwhile} {p : Plan α} {w w' : World}

/-- One plan after another: the first runs to some result, and the second takes it from there. -/
theorem runs_whenDone {k : Except Failure α → Plan β} {r : Except Failure β} :
    (p.whenDone k).Runs meanwhile w r w' ↔
      ∃ r₁ w₁, p.Runs meanwhile w r₁ w₁ ∧ (k r₁).Runs meanwhile w₁ r w' := by
  induction p generalizing w with
  | done result =>
    constructor
    · intro h
      exact ⟨result, w, ⟨rfl, rfl⟩, h⟩
    · rintro ⟨_, _, ⟨rfl, rfl⟩, h⟩
      exact h
  | look next ih => exact ih w
  | change f next ih => exact ih
  | wait what next ih =>
    constructor
    · rintro ⟨response, w₁, hmeanwhile, h⟩
      obtain ⟨r₂, w₂, hfirst, hsecond⟩ := (ih response).mp h
      exact ⟨r₂, w₂, ⟨response, w₁, hmeanwhile, hfirst⟩, hsecond⟩
    · rintro ⟨r₂, w₂, ⟨response, w₁, hmeanwhile, hfirst⟩, hsecond⟩
      exact ⟨response, w₁, hmeanwhile, (ih response).mpr ⟨r₂, w₂, hfirst, hsecond⟩⟩
  | start job next => exact ⟨False.elim, fun ⟨_, _, h, _⟩ => h⟩
  | cancel n next => exact ⟨False.elim, fun ⟨_, _, h, _⟩ => h⟩
  | failure n next => exact ⟨False.elim, fun ⟨_, _, h, _⟩ => h⟩

/-- What may come of fewer waits may come of more. -/
theorem Runs.mono {meanwhile' : Meanwhile} {r : Except Failure α} (h : p.Runs meanwhile w r w')
    (hmore : ∀ what w response w₁, meanwhile what w response w₁ → meanwhile' what w response w₁) :
    p.Runs meanwhile' w r w' := by
  induction p generalizing w with
  | done result => exact h
  | look next ih => exact ih w h
  | change f next ih => exact ih h
  | wait what next ih =>
    obtain ⟨response, w₁, hmeanwhile, hruns⟩ := h
    exact ⟨response, w₁, hmore what w response w₁ hmeanwhile, ih response hruns⟩
  | start job next => exact h.elim
  | cancel n next => exact h.elim
  | failure n next => exact h.elim

/-- An attempt hands on how its plan ends. -/
theorem runs_attempt {r : Except Failure (Except Failure α)} :
    p.attempt.Runs meanwhile w r w' ↔ ∃ r₁, p.Runs meanwhile w r₁ w' ∧ r = .ok r₁ := by
  refine runs_whenDone.trans ⟨?_, ?_⟩
  · rintro ⟨r₁, w₁, h, rfl, rfl⟩
    exact ⟨r₁, h, rfl⟩
  · rintro ⟨r₁, h, rfl⟩
    exact ⟨r₁, w', h, rfl, rfl⟩

/-- A plan after one that ends well in one way only. -/
theorem runs_bind_of_ok {k : α → Plan β} {a : α} {w₁ : World} {r : Except Failure β}
    (hp : ∀ r₁ w₂, p.Runs meanwhile w r₁ w₂ ↔ r₁ = .ok a ∧ w₂ = w₁) :
    (p >>= k).Runs meanwhile w r w' ↔ (k a).Runs meanwhile w₁ r w' := by
  refine runs_whenDone.trans ⟨?_, ?_⟩
  · rintro ⟨r₁, w₂, h, hk⟩
    obtain ⟨rfl, rfl⟩ := (hp r₁ w₂).mp h
    exact hk
  · intro hk
    exact ⟨.ok a, w₁, (hp _ _).mpr ⟨rfl, rfl⟩, hk⟩

/-- A look at the world changes nothing. -/
theorem runs_world_bind {k : World → Plan β} {r : Except Failure β} :
    (world >>= k).Runs meanwhile w r w' ↔ (k w).Runs meanwhile w r w' :=
  runs_bind_of_ok fun _ _ => Iff.rfl

/-- A change of the world, and the plan that goes on with its result. -/
theorem runs_updateWith_bind {f : World → α × World} {k : α → Plan β} {r : Except Failure β} :
    (updateWith f >>= k).Runs meanwhile w r w' ↔ (k (f w).1).Runs meanwhile (f w).2 r w' :=
  runs_bind_of_ok fun _ _ => Iff.rfl

/-- What is tried first and gone on with afterwards. -/
theorem runs_attempt_bind {k : Except Failure α → Plan β} {r : Except Failure β} :
    (p.attempt >>= k).Runs meanwhile w r w' ↔
      ∃ r₁ w₁, p.Runs meanwhile w r₁ w₁ ∧ (k r₁).Runs meanwhile w₁ r w' := by
  refine runs_whenDone.trans ⟨?_, ?_⟩
  · rintro ⟨_, w₁, h, hk⟩
    obtain ⟨r₁, hp, rfl⟩ := runs_attempt.mp h
    exact ⟨r₁, w₁, hp, hk⟩
  · rintro ⟨r₁, w₁, hp, hk⟩
    exact ⟨.ok r₁, w₁, runs_attempt.mpr ⟨r₁, hp, rfl⟩, hk⟩

/-- A pause is one wait, or none. -/
theorem runs_pause {span : Span} {r : Except Failure Unit} :
    (pause span).Runs meanwhile w r w' ↔
      if span ≤ 0 then r = .ok () ∧ w' = w else meanwhile (.instant (w.now.after span)) w r w' := by
  unfold pause
  by_cases hspan : span ≤ 0
  · rw [if_pos hspan, if_pos hspan]
    exact Iff.rfl
  · rw [if_neg hspan, if_neg hspan]
    constructor
    · rintro ⟨_, _, h, rfl, rfl⟩
      exact h
    · intro h
      exact ⟨r, w', h, rfl, rfl⟩

/-- A plan that starts and cancels nothing and asks for no failure. -/
def IsSolitary : Plan α → Prop
  | done _ => True
  | look next => ∀ w, (next w).IsSolitary
  | change _ next => next.IsSolitary
  | wait _ next => ∀ r, (next r).IsSolitary
  | start _ _ => False
  | cancel _ _ => False
  | failure _ _ => False

/-- A plan is solitary if both of its parts are. -/
theorem isSolitary_whenDone {k : Except Failure α → Plan β} (hp : p.IsSolitary)
    (hk : ∀ r, (k r).IsSolitary) : (p.whenDone k).IsSolitary := by
  induction p with
  | done result => exact hk result
  | look next ih => exact fun w => ih w (hp w)
  | change f next ih => exact ih hp
  | wait what next ih => exact fun r => ih r (hp r)
  | start job next => exact hp.elim
  | cancel n next => exact hp.elim
  | failure n next => exact hp.elim

/-- So is one whose second part comes only if the first one ends well. -/
theorem isSolitary_bind {k : α → Plan β} (hp : p.IsSolitary) (hk : ∀ a, (k a).IsSolitary) :
    (p >>= k).IsSolitary := by
  refine isSolitary_whenDone hp fun r => ?_
  cases r with
  | ok a => exact hk a
  | error e => trivial

/-- An attempt of a solitary plan is solitary. -/
theorem isSolitary_attempt (hp : p.IsSolitary) : p.attempt.IsSolitary :=
  isSolitary_whenDone hp fun _ => trivial

/-- A change of the world is solitary. -/
theorem isSolitary_updateWith (f : World → α × World) : (updateWith f).IsSolitary :=
  fun _ => trivial

/-- A pause is solitary. -/
theorem isSolitary_pause (span : Span) : (pause span).IsSolitary := by
  unfold pause
  split
  · trivial
  · exact fun _ _ => trivial

/-- Such a plan runs to some end, where every wait may come to something. -/
theorem exists_runs (hp : p.IsSolitary)
    (hwaits : ∀ what w, ∃ response w₁, meanwhile what w response w₁) (w : World) :
    ∃ r w', p.Runs meanwhile w r w' := by
  induction p generalizing w with
  | done result => exact ⟨result, w, rfl, rfl⟩
  | look next ih => exact ih w (hp w) w
  | change f next ih => exact ih hp (f w)
  | wait what next ih =>
    obtain ⟨response, w₁, hmeanwhile⟩ := hwaits what w
    obtain ⟨r, w', hruns⟩ := ih response (hp response) w₁
    exact ⟨r, w', response, w₁, hmeanwhile, hruns⟩
  | start job next => exact hp.elim
  | cancel n next => exact hp.elim
  | failure n next => exact hp.elim

/-- A wait ends well, and time has passed. -/
def Passing : Meanwhile := fun _ w response w₁ =>
  response = .ok () ∧ ∃ now, w₁ = { w with now }

end Plan

namespace Scene

open Plan

variable {α : Type} {ofJob : Job → Plan α} {a : Nat} {p : Plan α} {s : Scene α}

/-- One activity has the scene for itself, and this is what it still does; or it has ended. -/
inductive Holds (a : Nat) : Plan α → Scene α → Prop where
  /-- It can go on. -/
  | ready {s : Scene α} {next : Except Failure Unit → Plan α}
      (hready : s.ready = [⟨a, .ok (), next⟩]) (hwaiting : s.waiting = [])
      (hended : s.ended = []) : Holds a (next (.ok ())) s
  /-- It waits. -/
  | waiting {s : Scene α} {what : Wait} {next : Except Failure Unit → Plan α}
      (hready : s.ready = []) (hwaiting : s.waiting = [⟨a, what, next⟩]) (hended : s.ended = []) :
      Holds a (.wait what next) s
  /-- It has ended. -/
  | ended {s : Scene α} {r : Except Failure α} (hready : s.ready = []) (hwaiting : s.waiting = [])
      (hended : s.ended = [(a, r)]) : Holds a (.done r) s

/-- A plan goes on as another one from another world, if every run of that makes one of it. -/
def Leads (p : Plan α) (w : World) (q : Plan α) (w₁ : World) : Prop :=
  q.IsSolitary ∧ ∀ r w', q.Runs Passing w₁ r w' → p.Runs Passing w r w'

/-- A wait that ends well hands on to what comes after it. -/
theorem leads_wait {what : Wait} {next : Except Failure Unit → Plan α} {w : World}
    (hsolitary : (wait what next).IsSolitary) (now : Instant) :
    Leads (.wait what next) w (next (.ok ())) { w with now } :=
  ⟨hsolitary (.ok ()), fun _ _ h => ⟨.ok (), { w with now }, ⟨rfl, now, rfl⟩, h⟩⟩

/-- A plan that is followed comes to a wait or to its end. -/
theorem holds_follow (hsolitary : p.IsSolitary) (hready : s.ready = []) (hwaiting : s.waiting = [])
    (hended : s.ended = []) :
    ∃ q, Holds a q (follow ofJob a p s) ∧ Leads p s.world q (follow ofJob a p s).world := by
  induction p generalizing s with
  | done r =>
    refine ⟨.done r, .ended hready hwaiting ?_, trivial, fun _ _ h => h⟩
    rw [follow, hended]
  | look next ih => exact ih s.world (hsolitary s.world) hready hwaiting hended
  | change f next ih =>
    exact ih (s := { s with world := f s.world }) hsolitary hready hwaiting hended
  | wait what next =>
    refine ⟨.wait what next, .waiting hready ?_ hended, hsolitary, fun _ _ h => h⟩
    rw [follow, hwaiting, List.nil_append]
  | start job next => exact hsolitary.elim
  | cancel n next => exact hsolitary.elim
  | failure n next => exact hsolitary.elim

/-- The only wait of a scene that ends lets its plan go on. -/
theorem holds_wakeFirst {q : Plan α} {s' : Scene α} {among : Wait → Bool} (hholds : Holds a q s)
    (hready : s.ready = []) (h : s.wakeFirst among = some s') :
    ∃ what next, q = .wait what next ∧ Holds a (next (.ok ())) s' ∧ s'.world = s.world := by
  unfold wakeFirst at h
  obtain ⟨x, hx, rfl⟩ := Option.map_eq_some_iff.mp h
  have hmem := List.mem_of_find?_eq_some hx
  cases hholds with
  | ready hsome _ _ => rw [hready] at hsome; cases hsome
  | ended _ hwaiting _ => rw [hwaiting] at hmem; cases hmem
  | @waiting _ what next _ hwaiting hended =>
    rw [hwaiting, List.mem_singleton] at hmem
    cases hmem
    exact ⟨what, next, rfl, .ready (by simp [hready]) (by simp [hwaiting]) hended, rfl⟩

variable {q : Plan α} {s' : Scene α}

/-- A turn takes the only activity on, and leads from its plan to the next one. -/
theorem holds_turn (hholds : Holds a q s) (hsolitary : q.IsSolitary)
    (h : s.turn? ofJob = some s') : ∃ q', Holds a q' s' ∧ Leads q s.world q' s'.world := by
  unfold turn? at h
  cases hready : s.ready with
  | nil =>
    rw [hready] at h
    obtain ⟨what, next, rfl, hnext, hworld⟩ := holds_wakeFirst hholds hready h
    rw [hworld]
    exact ⟨next (.ok ()), hnext, leads_wait hsolitary s.world.now⟩
  | cons x rest =>
    rw [hready] at h
    cases hholds with
    | waiting hnone _ _ => rw [hready] at hnone; cases hnone
    | ended hnone _ _ => rw [hready] at hnone; cases hnone
    | ready hone hwaiting hended =>
      rw [hready] at hone
      cases hone
      cases h
      exact holds_follow (s := { s with ready := [] }) hsolitary rfl hwaiting hended

/-- So does the next thing that is due. -/
theorem holds_fire {due : Instant} (hholds : Holds a q s) (hsolitary : q.IsSolitary)
    (hready : s.ready = []) (h : s.fire due = some s') :
    ∃ q', Holds a q' s' ∧ Leads q s.world q' s'.world := by
  unfold fire at h
  -- the clock moves first, and that is nothing to the activity
  have hmoved (now : Instant) : Holds a q { s with world := { s.world with now } } := by
    cases hholds with
    | ready hready hwaiting hended => exact .ready hready hwaiting hended
    | waiting hready hwaiting hended => exact .waiting hready hwaiting hended
    | ended hready hwaiting hended => exact .ended hready hwaiting hended
  obtain ⟨what, next, rfl, hnext, hworld⟩ :=
    holds_wakeFirst (hmoved (if due.isDue s.world.now then s.world.now else due)) hready h
  rw [hworld]
  exact ⟨next (.ok ()), hnext, leads_wait hsolitary _⟩

/-- Without a turn nobody is ready. -/
theorem ready_of_turn_none (h : s.turn? ofJob = none) : s.ready = [] := by
  unfold turn? at h
  cases hready : s.ready with
  | nil => rfl
  | cons x rest => rw [hready] at h; cases h

/-- An activity that has ended has run to its result. -/
theorem runs_of_result {r : Except Failure α} (hholds : Holds a q s) (h : s.result? a = some r) :
    q.Runs Passing s.world r s.world := by
  unfold result? at h
  cases hholds with
  | ready _ _ hended => rw [hended] at h; cases h
  | waiting _ _ hended => rw [hended] at h; cases h
  | ended _ _ hended =>
    rw [hended, List.lookup_cons, beq_self_eq_true] at h
    exact ⟨(Option.some.inj h).symm, rfl⟩

/-- The scheduler lets a plan that has the scene for itself run, and time passes in its waits. -/
theorem runs_of_run {isOver : Scene α → Bool} {mayWait : Instant → Bool} {r : Except Failure α}
    (fuel : Nat) (hholds : Holds a q s) (hsolitary : q.IsSolitary)
    (h : (s.run ofJob isOver mayWait fuel).result? a = some r) :
    q.Runs Passing s.world r (s.run ofJob isOver mayWait fuel).world := by
  induction fuel generalizing q s with
  | zero => exact runs_of_result hholds h
  | succ fuel ih =>
    unfold run at h ⊢
    by_cases hover : isOver s
    · rw [if_pos hover] at h ⊢
      exact runs_of_result hholds h
    · rw [if_neg hover] at h ⊢
      cases hturn : s.turn? ofJob with
      | some s₁ =>
        rw [hturn] at h
        obtain ⟨q₁, hholds₁, hsolitary₁, hleads⟩ := holds_turn hholds hsolitary hturn
        exact hleads r _ (ih hholds₁ hsolitary₁ h)
      | none =>
        rw [hturn] at h
        cases hdue : s.nextDue? with
        | none =>
          rw [hdue] at h
          exact runs_of_result hholds h
        | some due =>
          rw [hdue] at h
          dsimp only at h ⊢
          by_cases hmay : mayWait due
          · rw [if_pos hmay] at h ⊢
            cases hfire : s.fire due with
            | none =>
              rw [hfire] at h
              exact runs_of_result hholds h
            | some s₁ =>
              rw [hfire] at h
              obtain ⟨q₁, hholds₁, hsolitary₁, hleads⟩ :=
                holds_fire hholds hsolitary (ready_of_turn_none hturn) hfire
              exact hleads r _ (ih hholds₁ hsolitary₁ h)
          · rw [if_neg hmay] at h ⊢
            exact runs_of_result hholds h

/-- A plan that is launched on an empty scene and ends has run. -/
theorem runs_of_awaitEnd {w : World} {r : Except Failure α} (hsolitary : p.IsSolitary)
    (h : (awaitEnd ofJob 0 (({ world := w } : Scene α).launch p).2).result? 0 = some r) :
    p.Runs Passing w r (awaitEnd ofJob 0 (({ world := w } : Scene α).launch p).2).world :=
  runs_of_run turnLimit (.ready rfl rfl rfl) hsolitary h

end Scene

end EventRelay.Simulation
