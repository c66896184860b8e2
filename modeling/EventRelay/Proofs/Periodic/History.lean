import EventRelay.Proofs.Time.Clock
import EventRelay.Simulation.PeriodicRun

/-!
# What a periodic task did

What happens to a periodic task under rehearsal is noted down beside it, the last first: it was
started while it did not run, a tick began or ended, it was asked to stop, a stop was over.  What
may come next is told from the notes alone.

* `awaited?`: when the next tick is to begin, if that is what comes next.
* `Follows`: what may happen after what has happened; `Orderly`: a history in which it did.
* `Standing`: a task stands where its history says.
* `Standing.fire`, `Standing.start`, `Standing.stop`: everything that changes a task keeps that.

A start and a stop are only calls here: what follows on them, up to the first tick or to the end of
the task, are events like any other.
-/

namespace EventRelay.Simulation.PeriodicRun

/-! ## Histories -/

/-- Something that happened to a periodic task. -/
inductive Event where
  /-- It was started while it did not run. -/
  | launched (time : Instant)
  /-- A tick began. -/
  | began (time : Instant)
  /-- A tick ended like this. -/
  | ended (time : Instant) (result : Except Failure Unit)
  /-- It was asked to stop. -/
  | asked (time : Instant)
  /-- The stop was over. -/
  | halted (time : Instant)

/-- When a tick began with this. -/
def Event.begunAt? : Event → Option Instant
  | .began time => some time
  | _ => none

/-- A tick began. -/
def Event.isBegan : Event → Bool
  | .began _ => true
  | _ => false

/-- A tick ended. -/
def Event.isEnded : Event → Bool
  | .ended _ _ => true
  | _ => false

/-- The task was asked to stop and not started since then, or was never started. -/
def isStopped : List Event → Bool
  | [] => true
  | .launched _ :: _ => false
  | .asked _ :: _ => true
  | _ :: past => isStopped past

/-- How many ticks are in progress, as those that began and did not end. -/
def inProgress (history : List Event) : Int :=
  history.countP Event.isBegan - history.countP Event.isEnded

/-- When the next tick is to begin, if that is what comes next: after a start at once or after one
interval, and one interval after the end of a tick, unless the task was asked to stop. -/
def awaited? (cfg : PeriodicConfig) : List Event → Option Instant
  | .launched time :: _ => some (if cfg.immediate then time else time.after cfg.interval)
  | .ended time _ :: past => if isStopped past then none else some (time.after cfg.interval)
  | _ => none

/-- Something that is due at an instant happens at that instant, as far as the clock can tell. -/
def OnTime (due time : Instant) : Prop := due.isDue time = true ∧ time ≤ due

/-- What may happen after what has happened. -/
structure Follows (cfg : PeriodicConfig) (past : List Event) (e : Event) : Prop where
  /-- At most one tick is in progress. -/
  alone : 0 ≤ inProgress (e :: past) ∧ inProgress (e :: past) ≤ 1
  /-- A tick begins when it is to begin, and not after a stop. -/
  begins : ∀ time, e = .began time →
    isStopped past = false ∧ ∃ due, awaited? cfg past = some due ∧ OnTime due time
  /-- When a tick is to begin, it is the next to happen, unless the task is asked to stop. -/
  awaited : ∀ due, awaited? cfg past = some due →
    (∃ time, e = .began time) ∨ ∃ time, e = .asked time
  /-- The first tick after a start begins at once if it is to. -/
  atOnce : ∀ time before, past = .launched time :: before → cfg.immediate = true → e = .began time
  /-- A stop is over when no tick is in progress. -/
  halts : ∀ time, e = .halted time → inProgress past = 0
  /-- The task is started anew when it was stopped and no tick is in progress. -/
  launches : ∀ time, e = .launched time → isStopped past = true ∧ inProgress past = 0

/-- Everything in a history may happen after what happened before it. -/
def Orderly (cfg : PeriodicConfig) (history : List Event) : Prop :=
  ∀ e past, e :: past <:+ history → Follows cfg past e

section histories

variable {cfg : PeriodicConfig} {past : List Event} {e : Event} {time due : Instant}
  {result : Except Failure Unit}

/-- A start is no tick. -/
@[simp] theorem inProgress_launched :
    inProgress (.launched time :: past) = inProgress past := by
  simp [inProgress, Event.isBegan, Event.isEnded]

/-- A stop is no tick. -/
@[simp] theorem inProgress_asked : inProgress (.asked time :: past) = inProgress past := by
  simp [inProgress, Event.isBegan, Event.isEnded]

/-- The end of a stop is no tick. -/
@[simp] theorem inProgress_halted : inProgress (.halted time :: past) = inProgress past := by
  simp [inProgress, Event.isBegan, Event.isEnded]

/-- A tick that begins is one more in progress. -/
@[simp] theorem inProgress_began : inProgress (.began time :: past) = inProgress past + 1 := by
  unfold inProgress
  rw [List.countP_cons_of_pos rfl, List.countP_cons_of_neg Bool.false_ne_true]
  omega

/-- A tick that ends is one fewer in progress. -/
@[simp] theorem inProgress_ended :
    inProgress (.ended time result :: past) = inProgress past - 1 := by
  unfold inProgress
  rw [List.countP_cons_of_neg Bool.false_ne_true, List.countP_cons_of_pos rfl]
  omega

/-- Nothing has happened out of order in the beginning. -/
theorem orderly_nil : Orderly cfg [] := by
  intro e past h
  exact absurd (List.suffix_nil.mp h) nofun

/-- What may happen keeps a history orderly. -/
theorem Orderly.cons (h : Orderly cfg past) (he : Follows cfg past e) :
    Orderly cfg (e :: past) := by
  intro e' past' hsuffix
  rcases List.suffix_cons_iff.mp hsuffix with heq | hsuffix
  · cases heq
    exact he
  · exact h e' past' hsuffix

/-- A task that awaits a tick is not stopped. -/
theorem not_stopped_of_awaited (h : awaited? cfg past = some due) : isStopped past = false := by
  unfold awaited? at h
  split at h
  · rfl
  · rename_i past
    cases hstopped : isStopped past with
    | false => exact hstopped
    | true => simp [hstopped] at h
  · cases h

end histories

/-! ## Tasks and their histories -/

/-- A periodic task and what happened to it, the last first. -/
structure Watched where
  /-- The task. -/
  run : PeriodicRun
  /-- What happened. -/
  history : List Event

/-- What a change of a task tells: a tick began if there is one more, and one ended if it was in
progress and is so no more. -/
def told (before after : PeriodicRun) : List Event :=
  let begun := before.ticks.length < after.ticks.length
  (if begun then [.began after.now] else []) ++
    match before.tickEnd with
    | some (_, result) => if begun ∨ after.tickEnd.isNone then [.ended after.now result] else []
    | none => []

namespace Watched

/-- The next event of the task happens. -/
def fire (w : Watched) (due : Instant) : Watched :=
  ⟨w.run.fire due, told w.run (w.run.fire due) ++ w.history⟩

/-- The task is started. -/
def start (w : Watched) : Watched :=
  ⟨{ w.run with task := w.run.task.start },
    (if w.run.task.running then [] else [.launched w.run.now]) ++ w.history⟩

/-- The task is asked to stop. -/
def stop (w : Watched) : Watched :=
  ⟨{ w.run with task := w.run.task.stop }, .asked w.run.now :: w.history⟩

/-- A stop is over. -/
def halt (w : Watched) : Watched := ⟨w.run, .halted w.run.now :: w.history⟩

/-- What the operators were told is forgotten. -/
def clear (w : Watched) : Watched := ⟨{ w.run with notices := [] }, w.history⟩

/-- The task goes on by the next event. -/
@[simp] theorem run_fire (w : Watched) (due : Instant) : (w.fire due).run = w.run.fire due := rfl

end Watched

/-- An outcome is no cancellation. -/
def IsTame (o : Outcome Unit) : Prop := ∀ e, o.turn = .raise e → e.isCancellation = false

/-- Where a task stands, as its history says. -/
inductive Stands (cfg : PeriodicConfig) (r : PeriodicRun) (history : List Event) : Prop where
  /-- It does not run. -/
  | idle (hphase : r.task.phase = .idle) (hend : r.tickEnd = none)
      (hprogress : inProgress history = 0) (hstopped : isStopped history = true)
      (hawaited : awaited? cfg history = none)
  /-- It was started just now. -/
  | started (hphase : r.task.phase = .started) (hend : r.tickEnd = none)
      (hstopping : r.task.stopping = false) (hprogress : inProgress history = 0)
      (hlaunched : ∃ past, history = .launched r.now :: past)
  /-- It waits for the next tick. -/
  | waiting (due : Instant) (hphase : r.task.phase = .waiting due) (hend : r.tickEnd = none)
      (hstopping : r.task.stopping = false) (hshown : due.IsShown) (hnow : r.now ≤ due)
      (hprogress : inProgress history = 0) (hawaited : awaited? cfg history = some due)
      (hlater : ∀ time past, history = .launched time :: past → cfg.immediate = false)
  /-- It was asked to stop, and is to end. -/
  | leaving (hphase : r.task.phase = .leaving) (hend : r.tickEnd = none)
      (hprogress : inProgress history = 0) (hstopped : isStopped history = true)
      (hawaited : awaited? cfg history = none)
  /-- A tick is in progress. -/
  | ticking (due : Instant) (result : Except Failure Unit) (hphase : r.task.phase = .ticking)
      (hend : r.tickEnd = some (due, result)) (hstopping : r.task.stopping = isStopped history)
      (hshown : due.IsShown) (hnow : r.now ≤ due)
      (hresult : ∀ e, result = .error e → e.isCancellation = false)
      (hprogress : inProgress history = 1) (hawaited : awaited? cfg history = none)

/-- A task stands where its history says, and the history is orderly. -/
structure Standing (cfg : PeriodicConfig) (w : Watched) : Prop where
  /-- The settings stay. -/
  config : w.run.config = cfg
  /-- The clock can show the time. -/
  shown : w.run.now.IsShown
  /-- No outcome to come is a cancellation. -/
  script : ∀ o ∈ w.run.script, IsTame o
  /-- The ticks that began are those that the task has noted itself. -/
  ticks : w.run.ticks = w.history.filterMap Event.begunAt?
  /-- The history is orderly. -/
  orderly : Orderly cfg w.history
  /-- The task stands where it says. -/
  stands : Stands cfg w.run w.history

/-! ## What the operations of a task do -/

section operations

variable {cfg : PeriodicConfig} {r : PeriodicRun} {due : Instant}

/-- Something is due at its instant. -/
theorem isDue_self (due : Instant) : due.isDue due = true := by
  have hpositive : 0 < Clock.resolution := by decide
  change decide (due < due + Clock.resolution) = true
  exact decide_eq_true (Int.lt_add_of_pos_right due hpositive)

/-- Something is on time at its instant. -/
theorem onTime_self (due : Instant) : OnTime due due := ⟨isDue_self due, Int.le_refl due⟩

/-- The clock goes to an instant that is due at that time or later, and not past it. -/
theorem onTime_moveTo (hnow : r.now ≤ due) : OnTime due (r.moveTo due).now := by
  unfold moveTo
  by_cases hdue : due.isDue r.now = true
  · rw [if_pos hdue]
    exact ⟨hdue, hnow⟩
  · rw [if_neg hdue]
    exact onTime_self due

/-- The clock still shows an instant after it was moved to one. -/
theorem shown_moveTo (hshown : r.now.IsShown) (hdue : due.IsShown) :
    (r.moveTo due).now.IsShown := by
  unfold moveTo
  split
  · exact hshown
  · exact hdue

/-- A move of the clock changes nothing else. -/
theorem moveTo_eq (r : PeriodicRun) (due : Instant) :
    r.moveTo due = { r with now := (r.moveTo due).now } := by
  unfold moveTo
  split <;> rfl

/-- A tick begins, and takes its outcome off the script. -/
theorem exists_beginTick (hphase : r.task.phase = .ticking) (hend : r.tickEnd = none)
    (hscript : ∀ o ∈ r.script, IsTame o) (hshown : r.now.IsShown) :
    ∃ rest finish result,
      beginTick r =
        { r with script := rest, ticks := r.now :: r.ticks, tickEnd := some (finish, result) } ∧
      (∀ o ∈ rest, IsTame o) ∧ (∀ e, result = .error e → e.isCancellation = false) ∧
      finish.IsShown ∧ r.now ≤ finish := by
  have hspan (delay : Span) : 0 ≤ max 0 delay := Int.le_max_left 0 delay
  cases hnext : r.script with
  | nil =>
    refine ⟨[], r.now.after (max 0 0), .ok (), ?_, nofun, nofun, Instant.isShown_after _ _,
      Instant.le_after hshown (hspan 0)⟩
    simp only [beginTick, hphase, hend, hnext, Outcome.next, Outcome.plain]
  | cons o rest =>
    have htame : IsTame o := hscript o (by simp [hnext])
    have hrest : ∀ x ∈ rest, IsTame x := fun x hx => hscript x (by simp [hnext, hx])
    cases hturn : o.turn with
    | raise cause =>
      refine ⟨rest, r.now.after (max 0 o.delay), .error cause, ?_, hrest, ?_,
        Instant.isShown_after _ _, Instant.le_after hshown (hspan o.delay)⟩
      · simp only [beginTick, hphase, hend, hnext, Outcome.next, hturn]
      · rintro e ⟨⟩
        exact htame cause hturn
    | through =>
      refine ⟨rest, r.now.after (max 0 o.delay), .ok (), ?_, hrest, nofun,
        Instant.isShown_after _ _, Instant.le_after hshown (hspan o.delay)⟩
      simp only [beginTick, hphase, hend, hnext, Outcome.next, hturn]
    | answer value =>
      refine ⟨rest, r.now.after (max 0 o.delay), .ok (), ?_, hrest, nofun,
        Instant.isShown_after _ _, Instant.le_after hshown (hspan o.delay)⟩
      simp only [beginTick, hphase, hend, hnext, Outcome.next, hturn]

/-- A task that is not to tick begins no tick. -/
theorem beginTick_of_not_ticking (hphase : r.task.phase ≠ .ticking) : beginTick r = r := by
  unfold beginTick
  split
  · rename_i hticking _
    exact absurd hticking hphase
  · rfl

/-- After a tick the task waits one interval, unless it is to stop. -/
theorem pause_eq (hinterval : 0 < cfg.interval) (now : Instant) (p : Periodic) :
    p.pause cfg now =
      { p with phase := if p.stopping then .leaving else .waiting (now.after cfg.interval) } := by
  unfold Periodic.pause
  cases p.stopping with
  | true => simp [hinterval]
  | false => simp [Int.max_eq_right (Int.le_of_lt hinterval)]

/-- What is due at once does not move the clock. -/
theorem moveTo_now (r : PeriodicRun) : r.moveTo r.now = r := by
  unfold moveTo
  rw [if_pos (isDue_self r.now)]

/-- A wait that is over begins a tick. -/
theorem fire_of_waiting (due : Instant) {next : Instant} (hphase : r.task.phase = .waiting next)
    (hstopping : r.task.stopping = false) :
    r.fire due =
      beginTick { r with
        now := (r.moveTo due).now, task := { r.task with phase := .ticking } } := by
  unfold fire
  rw [moveTo_eq r due]
  simp only [hphase, Periodic.wake, hstopping, Bool.false_eq_true, if_false]

/-- A tick that ends is followed by no other one at once. -/
theorem fire_of_ticking (due : Instant) {finish : Instant} {result : Except Failure Unit}
    (hphase : r.task.phase = .ticking) (hend : r.tickEnd = some (finish, result))
    (hresult : ∀ e, result = .error e → e.isCancellation = false) :
    ∃ notices, r.fire due =
      { r with
        now := (r.moveTo due).now
        task := r.task.pause r.config (r.moveTo due).now
        tickEnd := none
        notices } := by
  unfold fire
  rw [moveTo_eq r due]
  simp only [hphase, hend]
  cases result with
  | ok => exact ⟨_, rfl⟩
  | error e =>
    simp only [Periodic.finishTick, hresult e rfl, Bool.false_eq_true, if_false]
    exact ⟨_, rfl⟩

/-- A task that was started has its first turn. -/
theorem fire_of_started (hphase : r.task.phase = .started) :
    r.fire r.now = beginTick { r with task := r.task.turn r.config r.now } := by
  unfold fire
  rw [moveTo_now]
  simp only [hphase]

/-- A task that is to end does so on its turn. -/
theorem fire_of_leaving (hphase : r.task.phase = .leaving) :
    r.fire r.now = { r with task := { r.task with phase := .idle } } := by
  unfold fire
  rw [moveTo_now]
  simp only [hphase, Periodic.turn]
  exact beginTick_of_not_ticking (by simp)

/-- A task that has an event ahead runs. -/
theorem running_of_nextDue (hdue : r.nextDue? = some due) : r.task.running = true := by
  unfold nextDue? at hdue
  unfold Periodic.running
  split at hdue <;> simp_all

/-- After a pause a task waits or is to end. -/
theorem phase_pause_ne (cfg : PeriodicConfig) (now : Instant) (p : Periodic)
    {phase : PeriodicPhase} (hleaving : phase ≠ .leaving) (hwaiting : ∀ due, phase ≠ .waiting due) :
    (p.pause cfg now).phase ≠ phase := by
  unfold Periodic.pause
  split
  · exact hleaving.symm
  · exact (hwaiting _).symm

/-- The beginning of a tick leaves the phase. -/
@[simp] theorem phase_beginTick (r : PeriodicRun) : (beginTick r).task.phase = r.task.phase := by
  unfold beginTick
  split <;> rfl

/-- Nothing that happens by itself leaves a task before its first turn. -/
theorem phase_fire_ne (r : PeriodicRun) (due : Instant) :
    (r.fire due).task.phase ≠ .started := by
  unfold fire
  dsimp only
  split
  · unfold Periodic.finishTick
    split
    · exact phase_pause_ne _ _ _ nofun nofun
    · split
      · nofun
      · exact phase_pause_ne _ _ _ nofun nofun
  · rename_i hticking _
    rw [hticking]
    nofun
  · rename_i hwaiting
    rw [phase_beginTick]
    simp only [Periodic.wake, hwaiting]
    split <;> nofun
  · rw [phase_beginTick]
    unfold Periodic.turn
    split
    · split
      · dsimp only
        split <;> nofun
      · exact phase_pause_ne _ _ _ nofun nofun
    · nofun
    · rename_i hstarted _
      exact hstarted

end operations

/-! ## What they tell -/

section telling

variable {before after : PeriodicRun}

/-- A change by which there is one tick more tells that it began. -/
theorem told_of_began {time : Instant} (hend : before.tickEnd = none)
    (hticks : after.ticks = time :: before.ticks) : told before after = [.began after.now] := by
  simp [told, hend, hticks]

/-- A change by which no tick is in progress any more tells that it ended. -/
theorem told_of_ended {finish : Instant} {result : Except Failure Unit}
    (hend : before.tickEnd = some (finish, result)) (hticks : after.ticks = before.ticks)
    (hnone : after.tickEnd = none) : told before after = [.ended after.now result] := by
  simp [told, hend, hticks, hnone]

/-- A change that concerns no tick tells nothing. -/
theorem told_of_same (hend : before.tickEnd = after.tickEnd) (hticks : after.ticks = before.ticks) :
    told before after = [] := by
  unfold told
  rw [hend]
  cases after.tickEnd <;> simp [hticks]

/-- So does a change of the task alone. -/
theorem told_of_task (r : PeriodicRun) (task : Periodic) : told r { r with task } = [] :=
  told_of_same rfl rfl

end telling

/-! ## Every change keeps to the history -/

section standing

variable {cfg : PeriodicConfig} {w : Watched} {due : Instant}

/-- A tick that is awaited begins. -/
theorem follows_began {past : List Event} {time : Instant} (hprogress : inProgress past = 0)
    (hawaited : awaited? cfg past = some due) (htime : OnTime due time)
    (hlater : ∀ t before, past = .launched t :: before → cfg.immediate = true → time = t) :
    Follows cfg past (.began time) where
  alone := by
    rw [inProgress_began, hprogress]
    decide
  begins t ht := by
    cases ht
    exact ⟨not_stopped_of_awaited hawaited, due, hawaited, htime⟩
  awaited _ _ := .inl ⟨time, rfl⟩
  atOnce t before hpast himmediate := by
    rw [hlater t before hpast himmediate]
  halts _ h := nomatch h
  launches _ h := nomatch h

/-- A tick that is in progress ends. -/
theorem follows_ended {past : List Event} {time : Instant} {result : Except Failure Unit}
    (hprogress : inProgress past = 1) (hawaited : awaited? cfg past = none) :
    Follows cfg past (.ended time result) where
  alone := by
    rw [inProgress_ended, hprogress]
    decide
  begins _ h := nomatch h
  awaited due h := by
    rw [hawaited] at h
    cases h
  atOnce t before hpast := by
    rw [hpast] at hawaited
    cases hawaited
  halts _ h := nomatch h
  launches _ h := nomatch h

/-- The task is asked to stop. -/
theorem follows_asked {past : List Event} {time : Instant}
    (hprogress : 0 ≤ inProgress past ∧ inProgress past ≤ 1)
    (hlater : ∀ t before, past = .launched t :: before → cfg.immediate = false) :
    Follows cfg past (.asked time) where
  alone := by
    rw [inProgress_asked]
    exact hprogress
  begins _ h := nomatch h
  awaited _ _ := .inr ⟨time, rfl⟩
  atOnce t before hpast himmediate := by
    rw [hlater t before hpast] at himmediate
    cases himmediate
  halts _ h := nomatch h
  launches _ h := nomatch h

/-- A task that does not run may be started, and the stop of it may be over. -/
theorem follows_of_idle {past : List Event} {e : Event} (hprogress : inProgress past = 0)
    (hstopped : isStopped past = true) (hawaited : awaited? cfg past = none)
    (he : (∃ time, e = .launched time) ∨ ∃ time, e = .halted time) : Follows cfg past e where
  alone := by
    rcases he with ⟨time, rfl⟩ | ⟨time, rfl⟩
    · rw [inProgress_launched, hprogress]
      decide
    · rw [inProgress_halted, hprogress]
      decide
  begins t ht := by
    rcases he with ⟨time, rfl⟩ | ⟨time, rfl⟩ <;> cases ht
  awaited due h := by
    rw [hawaited] at h
    cases h
  atOnce t before hpast := by
    rw [hpast] at hawaited
    cases hawaited
  halts _ _ := hprogress
  launches _ _ := ⟨hstopped, hprogress⟩

/-- Where a task stands at most one tick is in progress. -/
theorem Stands.progress {r : PeriodicRun} {history : List Event} (h : Stands cfg r history) :
    0 ≤ inProgress history ∧ inProgress history ≤ 1 := by
  cases h with
  | idle _ _ hprogress _ _ => omega
  | started _ _ _ hprogress _ => omega
  | waiting _ _ _ _ _ _ hprogress _ _ => omega
  | leaving _ _ hprogress _ _ => omega
  | ticking _ _ _ _ _ _ _ _ hprogress _ => omega

/-- A task that has had its first turn after a start and done nothing waits for its interval. -/
theorem Stands.later {r : PeriodicRun} {history : List Event} (h : Stands cfg r history)
    (hturned : r.task.phase ≠ .started) (time : Instant) (past : List Event)
    (hpast : history = .launched time :: past) : cfg.immediate = false := by
  cases h with
  | started hphase _ _ _ _ => exact absurd hphase hturned
  | waiting _ _ _ _ _ _ _ _ hlater => exact hlater time past hpast
  | idle _ _ _ _ hawaited =>
    rw [hpast] at hawaited
    cases hawaited
  | leaving _ _ _ _ hawaited =>
    rw [hpast] at hawaited
    cases hawaited
  | ticking _ _ _ _ _ _ _ _ _ hawaited =>
    rw [hpast] at hawaited
    cases hawaited

/-- A new task stands at the beginning. -/
theorem standing_fresh (cfg : PeriodicConfig) {script : List (Outcome Unit)}
    (hscript : ∀ o ∈ script, IsTame o) : Standing cfg ⟨fresh cfg script, []⟩ where
  config := rfl
  shown := Instant.isShown_origin
  script := hscript
  ticks := rfl
  orderly := orderly_nil
  stands := .idle rfl rfl rfl rfl rfl

/-- What the operators were told is no part of where the task stands. -/
theorem Standing.clear (h : Standing cfg w) : Standing cfg w.clear where
  config := h.config
  shown := h.shown
  script := h.script
  ticks := h.ticks
  orderly := h.orderly
  stands := by
    cases h.stands with
    | idle hphase hend hprogress hstopped hawaited =>
      exact .idle hphase hend hprogress hstopped hawaited
    | started hphase hend hstopping hprogress hlaunched =>
      exact .started hphase hend hstopping hprogress hlaunched
    | waiting due hphase hend hstopping hshown hnow hprogress hawaited hlater =>
      exact .waiting due hphase hend hstopping hshown hnow hprogress hawaited hlater
    | leaving hphase hend hprogress hstopped hawaited =>
      exact .leaving hphase hend hprogress hstopped hawaited
    | ticking due result hphase hend hstopping hshown hnow hresult hprogress hawaited =>
      exact .ticking due result hphase hend hstopping hshown hnow hresult hprogress hawaited

/-- Time passes, up to the next event. -/
theorem Standing.moveTo (h : Standing cfg w) (hdue : due.IsShown)
    (hnext : ∀ next, w.run.nextDue? = some next → due ≤ next) :
    Standing cfg ⟨w.run.moveTo due, w.history⟩ := by
  have hwithin (next : Instant) (hsome : w.run.nextDue? = some next) (hnow : w.run.now ≤ next) :
      (w.run.moveTo due).now ≤ next := by
    unfold PeriodicRun.moveTo
    split
    · exact hnow
    · exact hnext next hsome
  have hshown := shown_moveTo h.shown hdue
  rw [moveTo_eq]
  refine ⟨h.config, hshown, h.script, h.ticks, h.orderly, ?_⟩
  cases h.stands with
  | idle hphase hend hprogress hstopped hawaited =>
    exact .idle hphase hend hprogress hstopped hawaited
  | started hphase hend hstopping hprogress hlaunched =>
    -- its turn is due now, so no time passes
    have hsome : w.run.nextDue? = some w.run.now := by
      simp only [nextDue?, hphase]
    have hnow : due.isDue w.run.now = true :=
      decide_eq_true (Int.lt_of_le_of_lt (hnext _ hsome) (of_decide_eq_true (isDue_self _)))
    refine .started hphase hend hstopping hprogress ?_
    unfold PeriodicRun.moveTo
    rwa [if_pos hnow]
  | waiting next hphase hend hstopping hnextShown hnow hprogress hawaited hlater =>
    have hsome : w.run.nextDue? = some next := by
      simp only [nextDue?, hphase]
    exact .waiting next hphase hend hstopping hnextShown (hwithin next hsome hnow) hprogress
      hawaited hlater
  | leaving hphase hend hprogress hstopped hawaited =>
    exact .leaving hphase hend hprogress hstopped hawaited
  | ticking next result hphase hend hstopping hnextShown hnow hresult hprogress hawaited =>
    have hsome : w.run.nextDue? = some next := by
      simp only [nextDue?, hphase, hend]
    exact .ticking next result hphase hend hstopping hnextShown (hwithin next hsome hnow) hresult
      hprogress hawaited

/-- A tick begins when it is awaited, and is in progress then. -/
theorem Standing.began (h : Standing cfg w) {r : PeriodicRun} (hconfig : r.config = cfg)
    (hshown : r.now.IsShown) (hscript : ∀ o ∈ r.script, IsTame o) (hticks : r.ticks = w.run.ticks)
    (hphase : r.task.phase = .ticking) (hstopping : r.task.stopping = false)
    (hend : r.tickEnd = none) (hbefore : w.run.tickEnd = none)
    (hprogress : inProgress w.history = 0) (hawaited : awaited? cfg w.history = some due)
    (htime : OnTime due r.now)
    (hfirst : ∀ t before, w.history = .launched t :: before → cfg.immediate = true → r.now = t) :
    Standing cfg ⟨beginTick r, told w.run (beginTick r) ++ w.history⟩ := by
  obtain ⟨rest, finish, result, hbegin, hrest, hresult, hfinish, hle⟩ :=
    exists_beginTick hphase hend hscript hshown
  have htold : told w.run (beginTick r) = [.began r.now] := by
    rw [hbegin]
    exact told_of_began hbefore (congrArg (r.now :: ·) hticks)
  have hfollows : Follows cfg w.history (.began r.now) :=
    follows_began hprogress hawaited htime hfirst
  rw [htold, hbegin]
  refine ⟨hconfig, hshown, hrest, ?_, h.orderly.cons hfollows, ?_⟩
  · exact congrArg (r.now :: ·) (hticks.trans h.ticks)
  · refine .ticking finish result hphase rfl ?_ hfinish hle hresult ?_ rfl
    · exact hstopping.trans (not_stopped_of_awaited hawaited).symm
    · change inProgress (.began _ :: w.history) = 1
      rw [inProgress_began, hprogress]
      rfl

/-- A task that was started has its first turn: it begins a tick at once, or waits one interval. -/
theorem Standing.firstTurn (h : Standing cfg w) (hinterval : 0 < cfg.interval)
    (hphase : w.run.task.phase = .started) (hend : w.run.tickEnd = none)
    (hstopping : w.run.task.stopping = false) (hprogress : inProgress w.history = 0)
    {past : List Event} (hpast : w.history = .launched w.run.now :: past) :
    Standing cfg (w.fire w.run.now) := by
  unfold Watched.fire
  rw [fire_of_started hphase]
  cases himmediate : cfg.immediate with
  | true =>
    have hturn : w.run.task.turn w.run.config w.run.now = ⟨.ticking, false⟩ := by
      simp [Periodic.turn, hphase, h.config, himmediate, hstopping]
    have hawaited : awaited? cfg w.history = some w.run.now := by
      simp [hpast, awaited?, himmediate]
    rw [hturn]
    refine h.began (r := { w.run with task := ⟨.ticking, false⟩ }) h.config h.shown h.script
      rfl rfl rfl hend hend hprogress hawaited (onTime_self _) fun t before heq _ => ?_
    cases hpast.symm.trans heq
    rfl
  | false =>
    have hturn : w.run.task.turn w.run.config w.run.now =
        ⟨.waiting (w.run.now.after cfg.interval), false⟩ := by
      simp [Periodic.turn, hphase, h.config, himmediate, pause_eq hinterval, hstopping]
    have hawaited : awaited? cfg w.history = some (w.run.now.after cfg.interval) := by
      simp [hpast, awaited?, himmediate]
    rw [hturn, beginTick_of_not_ticking (by simp), told_of_task]
    refine ⟨h.config, h.shown, h.script, h.ticks, h.orderly, ?_⟩
    exact .waiting _ rfl hend rfl (Instant.isShown_after _ _)
      (Instant.le_after h.shown (Int.le_of_lt hinterval)) hprogress hawaited
      fun _ _ _ => himmediate

/-- A tick ends when it is over, and the next one is awaited one interval later, unless the task is
to stop. -/
theorem Standing.ended (h : Standing cfg w) (hinterval : 0 < cfg.interval)
    {result : Except Failure Unit} (hphase : w.run.task.phase = .ticking)
    (hend : w.run.tickEnd = some (due, result))
    (hstopping : w.run.task.stopping = isStopped w.history) (hshown : due.IsShown)
    (hresult : ∀ e, result = .error e → e.isCancellation = false)
    (hprogress : inProgress w.history = 1) (hawaited : awaited? cfg w.history = none) :
    Standing cfg (w.fire due) := by
  have hpositive : 0 < w.run.config.interval := h.config ▸ hinterval
  have hnowShown := shown_moveTo h.shown hshown
  obtain ⟨notices, hfire⟩ := fire_of_ticking due hphase hend hresult
  have htold : told w.run (w.run.fire due) = [.ended (w.run.moveTo due).now result] := by
    rw [hfire]
    exact told_of_ended hend rfl rfl
  have hfollows : Follows cfg w.history (.ended (w.run.moveTo due).now result) :=
    follows_ended hprogress hawaited
  have hnone : inProgress (.ended (w.run.moveTo due).now result :: w.history) = 0 := by
    rw [inProgress_ended, hprogress]
    rfl
  unfold Watched.fire
  rw [htold, hfire, pause_eq hpositive, h.config, hstopping]
  refine ⟨rfl, hnowShown, h.script, ?_, h.orderly.cons hfollows, ?_⟩
  · exact h.ticks.trans (List.filterMap_cons_none rfl).symm
  · cases hstopped : isStopped w.history with
    | true =>
      refine .leaving (by simp) rfl hnone hstopped ?_
      simp [awaited?, hstopped]
    | false =>
      refine .waiting _ (by simp) rfl rfl (Instant.isShown_after _ _)
        (Instant.le_after hnowShown (Int.le_of_lt hinterval)) hnone ?_ nofun
      simp [awaited?, hstopped]

/-- The next event of a task keeps to its history. -/
theorem Standing.fire (h : Standing cfg w) (hinterval : 0 < cfg.interval)
    (hdue : w.run.nextDue? = some due) : Standing cfg (w.fire due) := by
  cases h.stands with
  | idle hphase hend _ _ _ => simp [nextDue?, hphase] at hdue
  | started hphase hend hstopping hprogress hlaunched =>
    obtain rfl : w.run.now = due := by
      simpa [nextDue?, hphase] using hdue
    obtain ⟨past, hpast⟩ := hlaunched
    exact h.firstTurn hinterval hphase hend hstopping hprogress hpast
  | waiting next hphase hend hstopping hshown hnow hprogress hawaited hlater =>
    obtain rfl : next = due := by
      simpa [nextDue?, hphase] using hdue
    unfold Watched.fire
    rw [fire_of_waiting next hphase hstopping]
    refine h.began (r := { w.run with
      now := (w.run.moveTo next).now, task := { w.run.task with phase := .ticking } })
      h.config (shown_moveTo h.shown hshown) h.script rfl rfl hstopping hend hend hprogress
      hawaited (onTime_moveTo hnow) fun t before hpast himmediate => ?_
    rw [hlater t before hpast] at himmediate
    cases himmediate
  | leaving hphase hend hprogress hstopped hawaited =>
    obtain rfl : w.run.now = due := by
      simpa [nextDue?, hphase] using hdue
    unfold Watched.fire
    rw [fire_of_leaving hphase, told_of_task]
    exact ⟨h.config, h.shown, h.script, h.ticks, h.orderly,
      .idle rfl hend hprogress hstopped hawaited⟩
  | ticking next result hphase hend hstopping hshown _ hresult hprogress hawaited =>
    obtain rfl : next = due := by
      simpa [nextDue?, hphase, hend] using hdue
    exact h.ended hinterval hphase hend hstopping hshown hresult hprogress hawaited

/-- So does a stop, once the task has had its first turn. -/
theorem Standing.stop (h : Standing cfg w) (hturned : w.run.task.phase ≠ .started) :
    Standing cfg w.stop := by
  have hfollows : Follows cfg w.history (.asked w.run.now) :=
    follows_asked h.stands.progress (h.stands.later hturned)
  refine ⟨h.config, h.shown, h.script, h.ticks, h.orderly.cons hfollows, ?_⟩
  cases h.stands with
  | idle hphase hend hprogress hstopped hawaited =>
    refine .idle ?_ hend (inProgress_asked.trans hprogress) rfl rfl
    simp [Watched.stop, Periodic.stop, hphase]
  | started hphase _ _ _ _ => exact absurd hphase hturned
  | waiting due hphase hend hstopping hshown hnow hprogress hawaited hlater =>
    refine .leaving ?_ hend (inProgress_asked.trans hprogress) rfl rfl
    simp [Watched.stop, Periodic.stop, hphase]
  | leaving hphase hend hprogress hstopped hawaited =>
    refine .leaving ?_ hend (inProgress_asked.trans hprogress) rfl rfl
    simp [Watched.stop, Periodic.stop, hphase]
  | ticking due result hphase hend hstopping hshown hnow hresult hprogress hawaited =>
    refine .ticking due result ?_ hend ?_ hshown hnow hresult (inProgress_asked.trans hprogress) rfl
    · simp [Watched.stop, Periodic.stop, hphase]
    · simp [Watched.stop, Periodic.stop, hphase, isStopped]

/-- A stop is over when the task does not run. -/
theorem Standing.halt (h : Standing cfg w) (hidle : w.run.task.phase = .idle) :
    Standing cfg w.halt := by
  cases h.stands with
  | idle hphase hend hprogress hstopped hawaited =>
    have hfollows : Follows cfg w.history (.halted w.run.now) :=
      follows_of_idle hprogress hstopped hawaited (.inr ⟨w.run.now, rfl⟩)
    exact ⟨h.config, h.shown, h.script, h.ticks, h.orderly.cons hfollows,
      .idle hphase hend (inProgress_halted.trans hprogress) hstopped rfl⟩
  | started hphase _ _ _ _ => cases hidle.symm.trans hphase
  | waiting due hphase _ _ _ _ _ _ _ => cases hidle.symm.trans hphase
  | leaving hphase _ _ _ _ => cases hidle.symm.trans hphase
  | ticking due result hphase _ _ _ _ _ _ _ => cases hidle.symm.trans hphase

/-- A task that runs is left alone by a start. -/
theorem start_of_running (hrunning : w.run.task.running = true) : w.start = w := by
  unfold Watched.start Periodic.start
  rw [if_pos hrunning, hrunning]
  rfl

/-- A task that does not run is started, and has its first turn ahead. -/
theorem Standing.start (h : Standing cfg w) : Standing cfg w.start := by
  by_cases hrunning : w.run.task.running = true
  · rwa [start_of_running hrunning]
  · cases h.stands with
    | started hphase _ _ _ _ => simp [Periodic.running, hphase] at hrunning
    | waiting due hphase _ _ _ _ _ _ _ => simp [Periodic.running, hphase] at hrunning
    | leaving hphase _ _ _ _ => simp [Periodic.running, hphase] at hrunning
    | ticking due result hphase _ _ _ _ _ _ _ => simp [Periodic.running, hphase] at hrunning
    | idle hphase hend hprogress hstopped hawaited =>
      have hlaunch : Orderly cfg (.launched w.run.now :: w.history) :=
        h.orderly.cons (follows_of_idle hprogress hstopped hawaited (.inl ⟨w.run.now, rfl⟩))
      unfold Watched.start Periodic.start
      rw [if_neg hrunning, Bool.eq_false_iff.mpr hrunning]
      refine ⟨h.config, h.shown, h.script, ?_, hlaunch, ?_⟩
      · exact h.ticks.trans (List.filterMap_cons_none rfl).symm
      · exact .started rfl hend rfl (inProgress_launched.trans hprogress) ⟨w.history, rfl⟩

end standing

end EventRelay.Simulation.PeriodicRun
