import EventRelay.Proofs.Periodic.History

/-!
# Ticks of a periodic task

A rehearsal starts a task, stops it and lets time pass, in any order, so a start or a stop comes
before the first tick, during a tick, or in the wait between two.  Whatever the steps, what happens
is orderly: every single change keeps a task where its history says it stands, and a rehearsal makes
no other changes.

* `Elapses`: what happens by itself; `exists_settle`, `exists_runUntil`, `exists_awaitEnd`: nothing
  else happens in the loops of a rehearsal.
* `Settled`: how a task stands between two steps.
* `Course`: a rehearsal with what happened in it.
* `ticks_regular`: every course is regular.
-/

namespace EventRelay.Simulation.PeriodicRun

/-! ## What happens by itself -/

/-- Events happen in their turn, and time passes in between. -/
inductive Elapses : Watched → Watched → Prop where
  /-- Nothing happens. -/
  | refl (w : Watched) : Elapses w w
  /-- The next event happens. -/
  | fire {w w' : Watched} {due : Instant} (hdue : w.run.nextDue? = some due)
      (h : Elapses (w.fire due) w') : Elapses w w'
  /-- Time passes, and not past the next event. -/
  | move {w w' : Watched} {time : Instant} (hshown : time.IsShown)
      (hnext : ∀ due, w.run.nextDue? = some due → time ≤ due)
      (h : Elapses ⟨w.run.moveTo time, w.history⟩ w') : Elapses w w'

section elapses

variable {cfg : PeriodicConfig} {w w' : Watched}

/-- A task stands where its history says whatever happens by itself. -/
theorem Standing.elapses (h : Standing cfg w) (hinterval : 0 < cfg.interval)
    (helapses : Elapses w w') : Standing cfg w' := by
  induction helapses with
  | refl w => exact h
  | fire hdue _ ih => exact ih (h.fire hinterval hdue)
  | move hshown hnext _ ih => exact ih (h.moveTo hshown hnext)

/-- What happened before is still told. -/
theorem Elapses.suffix (h : Elapses w w') : w.history <:+ w'.history := by
  induction h with
  | refl w => exact List.suffix_rfl
  | fire _ _ ih => exact (List.suffix_append _ _).trans ih
  | move _ _ _ ih => exact ih

/-- Events after events are events. -/
theorem Elapses.trans {w'' : Watched} (h : Elapses w w') (h' : Elapses w' w'') :
    Elapses w w'' := by
  induction h with
  | refl w => exact h'
  | fire hdue _ ih => exact .fire hdue (ih h')
  | move hshown hnext _ ih => exact .move hshown hnext (ih h')

/-- To let a task settle is to let events happen. -/
theorem exists_settle (fuel : Nat) (w : Watched) :
    ∃ w', Elapses w w' ∧ w'.run = w.run.settle fuel := by
  induction fuel generalizing w with
  | zero => exact ⟨w, .refl w, rfl⟩
  | succ fuel ih =>
    unfold settle
    cases hnext : w.run.nextDue? with
    | none => exact ⟨w, .refl w, rfl⟩
    | some due =>
      by_cases hdue : due.isDue w.run.now
      · obtain ⟨w', helapses, hrun⟩ := ih (w.fire due)
        exact ⟨w', .fire hnext helapses, by simpa [hdue] using hrun⟩
      · exact ⟨w, .refl w, by simp [hdue]⟩

/-- To let a task run until an instant is to let events happen. -/
theorem exists_runUntil {target : Instant} (hshown : target.IsShown) (fuel : Nat) (w : Watched) :
    ∃ w', Elapses w w' ∧ w'.run = w.run.runUntil target fuel := by
  induction fuel generalizing w with
  | zero => exact ⟨w, .refl w, rfl⟩
  | succ fuel ih =>
    unfold runUntil
    by_cases hreached : target.isDue w.run.now
    · exact ⟨w, .refl w, by simp [hreached]⟩
    · cases hnext : w.run.nextDue? with
      | none =>
        refine ⟨⟨w.run.moveTo target, w.history⟩, .move hshown ?_ (.refl _), by simp [hreached]⟩
        intro due hdue
        rw [hnext] at hdue
        cases hdue
      | some due =>
        by_cases hle : due ≤ target
        · obtain ⟨w', helapses, hrun⟩ := ih (w.fire due)
          exact ⟨w', .fire hnext helapses, by simpa [hreached, hle] using hrun⟩
        · refine ⟨⟨w.run.moveTo target, w.history⟩, .move hshown ?_ (.refl _),
            by simp [hreached, hle]⟩
          intro due' hdue'
          rw [hnext] at hdue'
          cases hdue'
          exact Int.le_of_lt (Int.not_le.mp hle)

/-- To wait for the end of a task is to let events happen. -/
theorem exists_awaitEnd (fuel : Nat) (w : Watched) :
    ∃ w', Elapses w w' ∧ w'.run = w.run.awaitEnd fuel := by
  induction fuel generalizing w with
  | zero => exact ⟨w, .refl w, rfl⟩
  | succ fuel ih =>
    unfold awaitEnd
    cases hnext : w.run.nextDue? with
    | none => exact ⟨w, .refl w, rfl⟩
    | some due =>
      obtain ⟨w', helapses, hrun⟩ := ih (w.fire due)
      exact ⟨w', .fire hnext helapses, hrun⟩

end elapses

/-! ## Between two steps -/

/-- Between two steps a task has had its turns: its first one after a start, and the last one after a
stop. -/
structure Settled (cfg : PeriodicConfig) (w : Watched) : Prop extends Standing cfg w where
  /-- It has had its first turn. -/
  turned : w.run.task.phase ≠ .started
  /-- If it was stopped it does not run. -/
  stopped : isStopped w.history = true → w.run.task.running = false

section settled

variable {cfg : PeriodicConfig} {w w' : Watched}

/-- What is told of ticks is no start and no stop. -/
theorem isStopped_told (before after : PeriodicRun) (past : List Event) :
    isStopped (told before after ++ past) = isStopped past := by
  unfold told
  cases before.tickEnd with
  | none => dsimp only; split <;> rfl
  | some finish => dsimp only; split <;> split <;> rfl

/-- Nothing that happens by itself is a start or a stop. -/
theorem Elapses.isStopped (helapses : Elapses w w') :
    isStopped w'.history = isStopped w.history := by
  induction helapses with
  | refl w => rfl
  | fire _ _ ih => exact ih.trans (isStopped_told _ _ _)
  | move _ _ _ ih => exact ih

/-- A task that has had its first turn has had it later. -/
theorem Elapses.turned (helapses : Elapses w w') (h : w.run.task.phase ≠ .started) :
    w'.run.task.phase ≠ .started := by
  induction helapses with
  | refl w => exact h
  | fire _ _ ih => exact ih (phase_fire_ne _ _)
  | move _ _ _ ih =>
    refine ih ?_
    rw [moveTo_eq]
    exact h

/-- A task that does not run is left alone. -/
theorem Elapses.running (helapses : Elapses w w') (h : w.run.task.running = false) :
    w'.run.task.running = false := by
  induction helapses with
  | refl w => exact h
  | fire hdue _ _ =>
    rw [running_of_nextDue hdue] at h
    cases h
  | move _ _ _ ih =>
    refine ih ?_
    rw [moveTo_eq]
    exact h

/-- A task has had its turns whatever happens by itself. -/
theorem Settled.elapses (h : Settled cfg w) (hinterval : 0 < cfg.interval)
    (helapses : Elapses w w') : Settled cfg w' where
  toStanding := h.toStanding.elapses hinterval helapses
  turned := helapses.turned h.turned
  stopped hstopped := helapses.running (h.stopped (helapses.isStopped ▸ hstopped))

/-- A task has had its turns whatever the operators were told. -/
theorem Settled.clear (h : Settled cfg w) : Settled cfg w.clear where
  toStanding := h.toStanding.clear
  turned := h.turned
  stopped := h.stopped

/-- A new task waits for no turn. -/
theorem settled_fresh (cfg : PeriodicConfig) {script : List (Outcome Unit)}
    (hscript : ∀ o ∈ script, IsTame o) : Settled cfg ⟨fresh cfg script, []⟩ where
  toStanding := standing_fresh cfg hscript
  turned := nofun
  stopped _ := rfl

/-- When everything that was due has happened, the task has had its first turn. -/
theorem phase_settle_ne (r : PeriodicRun) (fuel : Nat) :
    (r.settle (fuel + 1)).task.phase ≠ .started := by
  have hkept (r : PeriodicRun) (fuel : Nat) (h : r.task.phase ≠ .started) :
      (r.settle fuel).task.phase ≠ .started := by
    obtain ⟨w', helapses, hrun⟩ := exists_settle fuel ⟨r, []⟩
    rw [← hrun]
    exact helapses.turned h
  by_cases hphase : r.task.phase = .started
  · have hfirst : r.settle (fuel + 1) = (r.fire r.now).settle fuel := by
      simp [settle, nextDue?, hphase, isDue_self]
    rw [hfirst]
    exact hkept _ fuel (phase_fire_ne r r.now)
  · exact hkept r (fuel + 1) hphase

/-- A task that was stopped does not run when the tick in progress has ended and the task has had
its turn. -/
theorem Standing.phase_awaitEnd (h : Standing cfg w) (hinterval : 0 < cfg.interval)
    (hturned : w.run.task.phase ≠ .started) (hstopped : PeriodicRun.isStopped w.history = true)
    (fuel : Nat) : (w.run.awaitEnd (fuel + 2)).task.phase = .idle := by
  have hidle (r : PeriodicRun) (hphase : r.task.phase = .idle) (fuel : Nat) :
      r.awaitEnd fuel = r := by
    cases fuel with
    | zero => rfl
    | succ fuel => simp only [awaitEnd, nextDue?, hphase]
  have hleaving (r : PeriodicRun) (hphase : r.task.phase = .leaving) (fuel : Nat) :
      (r.awaitEnd (fuel + 1)).task.phase = .idle := by
    simp only [awaitEnd, nextDue?, hphase]
    rw [fire_of_leaving hphase, hidle _ rfl]
  cases h.stands with
  | idle hphase _ _ _ _ =>
    rw [hidle _ hphase]
    exact hphase
  | started hphase _ _ _ _ => exact absurd hphase hturned
  | waiting due _ _ _ _ _ _ hawaited _ =>
    rw [not_stopped_of_awaited hawaited] at hstopped
    cases hstopped
  | leaving hphase _ _ _ _ => exact hleaving _ hphase (fuel + 1)
  | ticking due result hphase hend hstopping _ _ hresult _ _ =>
    obtain ⟨notices, hfire⟩ := fire_of_ticking due hphase hend hresult
    have hleft : (w.run.fire due).task.phase = .leaving := by
      rw [hfire]
      simp [pause_eq (h.config ▸ hinterval : 0 < w.run.config.interval), hstopping, hstopped]
    have hfirst : w.run.awaitEnd (fuel + 2) = (w.run.fire due).awaitEnd (fuel + 1) := by
      simp only [awaitEnd, nextDue?, hphase, hend]
    rw [hfirst]
    exact hleaving _ hleft fuel

end settled

/-! ## Steps of a rehearsal -/

namespace Watched

/-- How a step begins. -/
def begin (w : Watched) : PeriodicStep → Watched
  | .start => w.start
  | .stop => w.stop
  | .advance _ => w

/-- How a step is over. -/
def finish (w : Watched) : PeriodicStep → Watched
  | .start => w
  | .stop => w.halt
  | .advance _ => w

end Watched

/-- A step is performed: it begins, things happen by themselves, and it is over, with the task as
the rehearsal leaves it. -/
def Performs (w : Watched) (s : PeriodicStep) (w' : Watched) : Prop :=
  ∃ between, Elapses (w.clear.begin s) between ∧ w' = between.finish s ∧
    step w.clear.run s = (.ok (), w'.run)

/-- A rehearsal with what happened in it, after each step. -/
inductive Course : Watched → List PeriodicStep → List Watched → Prop where
  | nil (w : Watched) : Course w [] []
  | cons {w w' : Watched} {s : PeriodicStep} {steps : List PeriodicStep} {ws : List Watched}
      (h : Performs w s w') (rest : Course w' steps ws) : Course w (s :: steps) (w' :: ws)

section courses

variable {cfg : PeriodicConfig} {w w' : Watched} {s : PeriodicStep} {steps : List PeriodicStep}
  {ws : List Watched}

/-- A task still stands where its history says when a step begins. -/
theorem Settled.begin (h : Settled cfg w) (s : PeriodicStep) : Standing cfg (w.begin s) := by
  cases s with
  | start => exact h.toStanding.start
  | stop => exact h.toStanding.stop h.turned
  | advance span => exact h.toStanding

/-- A stop leaves a task that does not run. -/
theorem Settled.phase_stop (h : Settled cfg w) (hinterval : 0 < cfg.interval) :
    (w.stop.run.awaitEnd eventLimit).task.phase = .idle := by
  refine (h.toStanding.stop h.turned).phase_awaitEnd hinterval ?_ rfl 999998
  intro hphase
  refine h.turned ?_
  simp only [Watched.stop, Periodic.stop] at hphase
  split at hphase
  · cases hphase
  · exact hphase

/-- A stop waits for the end of the task, and there is no error. -/
theorem Settled.step_stop (h : Settled cfg w) (hinterval : 0 < cfg.interval) :
    step w.run .stop = (.ok (), w.stop.run.awaitEnd eventLimit) := by
  have hphase : (awaitEnd eventLimit { w.run with task := w.run.task.stop }).task.phase = .idle :=
    h.phase_stop hinterval
  simp only [step, Periodic.stopped?, hphase]
  rfl

/-- Every step can be performed. -/
theorem Settled.exists_performs (h : Settled cfg w) (hinterval : 0 < cfg.interval)
    (s : PeriodicStep) : ∃ w', Performs w s w' := by
  cases s with
  | start =>
    obtain ⟨between, helapses, hrun⟩ := exists_settle eventLimit w.clear.start
    exact ⟨between, between, helapses, rfl, by rw [hrun]; rfl⟩
  | stop =>
    obtain ⟨between, helapses, hrun⟩ := exists_awaitEnd eventLimit w.clear.stop
    refine ⟨between.halt, between, helapses, rfl, ?_⟩
    rw [h.clear.step_stop hinterval, ← hrun]
    rfl
  | advance span =>
    obtain ⟨reached, hreached, hrunUntil⟩ :=
      exists_runUntil (Instant.isShown_after w.run.now (max 0 span)) eventLimit w.clear
    obtain ⟨between, hsettled, hrun⟩ := exists_settle eventLimit reached
    refine ⟨between, between, hreached.trans hsettled, rfl, ?_⟩
    rw [hrun, hrunUntil]
    rfl

/-- After a step that was performed a task has had its turns. -/
theorem Settled.performs (h : Settled cfg w) (hinterval : 0 < cfg.interval)
    (hperforms : Performs w s w') : Settled cfg w' := by
  obtain ⟨between, helapses, rfl, hstep⟩ := hperforms
  have hbetween := (h.clear.begin s).elapses hinterval helapses
  cases s with
  | start =>
    have hrun : between.run = settle eventLimit w.clear.start.run :=
      (congrArg Prod.snd hstep).symm
    refine ⟨hbetween, ?_, fun hstopped => ?_⟩
    · change between.run.task.phase ≠ .started
      rw [hrun]
      exact phase_settle_ne _ 999999
    · by_cases hrunning : w.clear.run.task.running = true
      · have hsame : w.clear.start = w.clear := start_of_running hrunning
        rw [Watched.begin, hsame] at helapses
        exact (h.clear.elapses hinterval helapses).stopped hstopped
      · have hlaunched : PeriodicRun.isStopped w.clear.start.history = false := by
          unfold Watched.start
          rw [Bool.eq_false_iff.mpr hrunning]
          rfl
        have hkept := helapses.isStopped
        rw [Watched.begin, hlaunched] at hkept
        cases hkept.symm.trans hstopped
  | advance span => exact h.clear.elapses hinterval helapses
  | stop =>
    rw [h.clear.step_stop hinterval] at hstep
    have hrun : between.run = w.clear.stop.run.awaitEnd eventLimit :=
      (congrArg Prod.snd hstep).symm
    have hidle : between.run.task.phase = .idle := by
      rw [hrun]
      exact h.clear.phase_stop hinterval
    refine ⟨hbetween.halt hidle, ?_, fun _ => ?_⟩
    · change between.run.task.phase ≠ .started
      rw [hidle]
      nofun
    · change between.run.task.running = false
      rw [Periodic.running, hidle]

/-- Every list of steps can be rehearsed. -/
theorem Settled.exists_course (h : Settled cfg w) (hinterval : 0 < cfg.interval)
    (steps : List PeriodicStep) : ∃ ws, Course w steps ws := by
  induction steps generalizing w with
  | nil => exact ⟨[], .nil w⟩
  | cons s steps ih =>
    obtain ⟨w', hperforms⟩ := h.exists_performs hinterval s
    obtain ⟨ws, hcourse⟩ := ih (h.performs hinterval hperforms)
    exact ⟨w' :: ws, .cons hperforms hcourse⟩

/-- After each of the steps a task has had its turns. -/
theorem Settled.course (h : Settled cfg w) (hinterval : 0 < cfg.interval)
    (hcourse : Course w steps ws) : ∀ w' ∈ ws, Settled cfg w' := by
  induction hcourse with
  | nil w => exact fun w' hw' => absurd hw' List.not_mem_nil
  | cons hperforms _ ih =>
    have hnext := h.performs hinterval hperforms
    intro w' hw'
    rcases List.mem_cons.mp hw' with rfl | hw'
    · exact hnext
    · exact ih hnext w' hw'

/-- A course is what a rehearsal comes to. -/
theorem rehearse_of_course (hcourse : Course w steps ws) :
    rehearse w.run steps = .ok (ws.map Watched.run) := by
  induction hcourse with
  | nil w => rfl
  | @cons w w' s steps ws hperforms _ ih =>
    obtain ⟨between, -, -, hstep⟩ := hperforms
    have hrun : step { w.run with notices := [] } s = (.ok (), w'.run) := hstep
    simp only [rehearse, hrun, ih]
    rfl

end courses

/-! ## The laws of a task -/

/-- What holds of a task and its history at every time between two steps. -/
structure Regular (cfg : PeriodicConfig) (w : Watched) : Prop where
  /-- Everything happened in its order and at its time. -/
  orderly : Orderly cfg w.history
  /-- The ticks that began are those that the task has noted itself. -/
  ticks : w.run.ticks = w.history.filterMap Event.begunAt?
  /-- The task runs from a start to a stop, and until the tick in progress has ended. -/
  running : w.run.task.running = true ↔
    isStopped w.history = false ∨ inProgress w.history = 1
  /-- No tick is late. -/
  punctual : ∀ due, awaited? cfg w.history = some due → w.run.now ≤ due
  /-- A tick that is awaited begins when enough time passes. -/
  prompt : ∀ due, awaited? cfg w.history = some due →
    ∀ span, due ≤ w.run.now.after (max 0 span) →
      w.run.ticks.length < (w.run.step (.advance span)).2.ticks.length
  /-- A start while the task runs changes nothing. -/
  ignored : w.run.task.running = true → w.start = w

section laws

variable {cfg : PeriodicConfig} {w : Watched} {due : Instant}

/-- A task is running unless it was stopped, or a tick is still in progress. -/
theorem Settled.running (h : Settled cfg w) :
    w.run.task.running = true ↔ isStopped w.history = false ∨ inProgress w.history = 1 := by
  cases h.stands with
  | idle hphase _ hprogress hstopped _ =>
    simp [Periodic.running, hphase, hprogress, hstopped]
  | started hphase _ _ _ _ => exact absurd hphase h.turned
  | waiting due hphase _ _ _ _ _ hawaited _ =>
    simp [Periodic.running, hphase, not_stopped_of_awaited hawaited]
  | leaving hphase _ _ hstopped _ =>
    have hnot := h.stopped hstopped
    rw [Periodic.running, hphase] at hnot
    cases hnot
  | ticking due result hphase _ _ _ _ _ hprogress _ =>
    simp [Periodic.running, hphase, hprogress]

/-- What is awaited is the next event. -/
theorem Settled.waits (h : Settled cfg w) (hawaited : awaited? cfg w.history = some due) :
    w.run.task.phase = .waiting due ∧ w.run.tickEnd = none ∧ w.run.task.stopping = false ∧
      w.run.now ≤ due := by
  cases h.stands with
  | started hphase _ _ _ _ => exact absurd hphase h.turned
  | waiting next hphase hend hstopping _ hnow _ hsome _ =>
    cases hsome.symm.trans hawaited
    exact ⟨hphase, hend, hstopping, hnow⟩
  | idle _ _ _ _ hnone => cases hnone.symm.trans hawaited
  | leaving _ _ _ _ hnone => cases hnone.symm.trans hawaited
  | ticking _ _ _ _ _ _ _ _ _ hnone => cases hnone.symm.trans hawaited

/-- No tick is forgotten. -/
theorem Standing.length_ticks_le (h : Standing cfg w) (hinterval : 0 < cfg.interval) {w' : Watched}
    (helapses : Elapses w w') : w.run.ticks.length ≤ w'.run.ticks.length := by
  rw [h.ticks, (h.elapses hinterval helapses).ticks]
  exact (helapses.suffix.filterMap Event.begunAt?).length_le

/-- The event that ends a wait is the beginning of a tick. -/
theorem Settled.length_ticks_fire (h : Settled cfg w)
    (hawaited : awaited? cfg w.history = some due) :
    (w.fire due).run.ticks.length = w.run.ticks.length + 1 := by
  obtain ⟨hphase, hend, hstopping, -⟩ := h.waits hawaited
  rw [Watched.run_fire, fire_of_waiting due hphase hstopping]
  simp only [beginTick, hend, List.length_cons]

/-- When enough time passes, the first thing to happen is the next event. -/
theorem exists_advance (hnext : w.run.nextDue? = some due) {target : Instant}
    (hshown : target.IsShown) (hle : due ≤ target) (fuel : Nat) :
    ∃ w', Elapses (w.fire due) w' ∧
      w'.run = (w.run.runUntil target (fuel + 1)).settle (fuel + 1) := by
  by_cases hreached : target.isDue w.run.now = true
  · have hdue : due.isDue w.run.now = true :=
      decide_eq_true (Int.lt_of_le_of_lt hle (of_decide_eq_true hreached))
    obtain ⟨w', helapses, hrun⟩ := exists_settle fuel (w.fire due)
    refine ⟨w', helapses, ?_⟩
    simpa only [runUntil, settle, hreached, hnext, hdue, if_true, Watched.run_fire] using hrun
  · obtain ⟨reached, hfirst, hrunUntil⟩ := exists_runUntil hshown fuel (w.fire due)
    obtain ⟨w', hsecond, hrun⟩ := exists_settle (fuel + 1) reached
    refine ⟨w', hfirst.trans hsecond, ?_⟩
    rw [hrun, hrunUntil]
    simp only [runUntil, hreached, hnext, hle, if_true, Watched.run_fire, Bool.false_eq_true,
      if_false]

/-- A tick that is awaited begins when enough time passes. -/
theorem Settled.prompt (h : Settled cfg w) (hinterval : 0 < cfg.interval)
    (hawaited : awaited? cfg w.history = some due) (span : Span)
    (hspan : due ≤ w.run.now.after (max 0 span)) :
    w.run.ticks.length < (w.run.step (.advance span)).2.ticks.length := by
  obtain ⟨hphase, -, -, -⟩ := h.waits hawaited
  have hnext : w.run.nextDue? = some due := by
    simp only [nextDue?, hphase]
  have hfired := h.toStanding.fire hinterval hnext
  obtain ⟨w', helapses, hrun⟩ :=
    exists_advance hnext (Instant.isShown_after w.run.now (max 0 span)) hspan 999999
  have hle := hfired.length_ticks_le hinterval helapses
  rw [h.length_ticks_fire hawaited, hrun] at hle
  exact hle

/-- What holds between two steps. -/
theorem Settled.regular (h : Settled cfg w) (hinterval : 0 < cfg.interval) : Regular cfg w where
  orderly := h.orderly
  ticks := h.ticks
  running := h.running
  punctual _ hawaited := (h.waits hawaited).2.2.2
  prompt _ hawaited := h.prompt hinterval hawaited
  ignored := start_of_running

/-- Ticks do not overlap, each begins at its time, and none begins from a stop to the next start,
in whatever order a task is started, stopped and left alone. -/
theorem ticks_regular {script : List (Outcome Unit)} (steps : List PeriodicStep)
    (hinterval : 0 < cfg.interval) (hscript : ∀ o ∈ script, IsTame o) :
    (∃ ws, Course ⟨fresh cfg script, []⟩ steps ws) ∧
    ∀ ws, Course ⟨fresh cfg script, []⟩ steps ws →
      rehearse (fresh cfg script) steps = .ok (ws.map Watched.run) ∧ ∀ w ∈ ws, Regular cfg w := by
  have hfresh := settled_fresh cfg hscript
  refine ⟨hfresh.exists_course hinterval steps, fun ws hcourse => ?_⟩
  exact ⟨rehearse_of_course hcourse, fun w hw =>
    (hfresh.course hinterval hcourse w hw).regular hinterval⟩

end laws

/-! ## A task that is stopped in its first tick -/

/-- A task that ticks at once and then every second. -/
def poller : PeriodicConfig := ⟨"outbox-publisher", Span.ofSeconds 1, true⟩

/-- Its first tick fails after two seconds. -/
def clumsyScript : List (Outcome Unit) := [⟨Span.ofSeconds 2, .raise .timedOut⟩]

/-- The first tick fails and is not cancelled. -/
theorem isTame_clumsyScript : ∀ o ∈ clumsyScript, IsTame o := by
  intro o ho e he
  rw [clumsyScript, List.mem_singleton] at ho
  subst ho
  cases he
  rfl

/-- The tick that fails is waited for by the stop, and none comes after it. -/
theorem ticks_regular_of_poller :
    0 < poller.interval ∧ (∀ o ∈ clumsyScript, IsTame o) ∧
    (∃ ws, Course ⟨fresh poller clumsyScript, []⟩
      [.start, .start, .advance (Span.ofSeconds 1), .stop, .advance (Span.ofSeconds 9)] ws) ∧
    ∀ ws, Course ⟨fresh poller clumsyScript, []⟩
        [.start, .start, .advance (Span.ofSeconds 1), .stop, .advance (Span.ofSeconds 9)] ws →
      rehearse (fresh poller clumsyScript)
          [.start, .start, .advance (Span.ofSeconds 1), .stop, .advance (Span.ofSeconds 9)] =
        .ok (ws.map Watched.run) ∧
      ∀ w ∈ ws, Regular poller w := by
  have hinterval : 0 < poller.interval := by
    decide
  exact ⟨hinterval, isTame_clumsyScript, ticks_regular _ hinterval isTame_clumsyScript⟩

end EventRelay.Simulation.PeriodicRun
