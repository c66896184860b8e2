import EventRelay.Proofs.Periodic.History

/-!
# Callers that share a periodic task

Whoever has a periodic task may start or stop it, at any time, also while a stop of somebody else
waits for the tick in progress.  A start makes a new loop, and a stop waits for the loop that the
task holds; when it returns the task holds none.  So a loop that was made between the end of the one
that a stop waits for and the return of that stop is forgotten: it ticks on, and neither a start nor
a stop knows of it.

* `Shared`: a task with all its loops and the stops that wait; `Shared.Step`: what may happen next.
* `Lawful`: ticks do not overlap, none begins after a stop, and a stop returns when none is in
  progress.
* `shared_lawful`: that is so if no start makes a loop while a stop waits.
* `forgotten_loop`: otherwise it need not be.
-/

namespace EventRelay.Simulation.PeriodicRun

/-! ## The task and its loops -/

/-- A periodic task that several callers share. -/
structure Shared where
  /-- The time. -/
  now : Instant
  /-- Whether the task has been asked to stop; all loops look at this. -/
  stopping : Bool
  /-- Where each loop stands, the first first. -/
  loops : List PeriodicPhase
  /-- The loop that the task holds. -/
  held : Option Nat
  /-- For each stop that waits, the loop that it waits for. -/
  stops : List Nat

namespace Shared

/-- A task that was never started. -/
def fresh : Shared := ⟨Instant.origin, false, [], none, []⟩

/-- A loop as a task of its own. -/
def loop (s : Shared) (phase : PeriodicPhase) : Periodic := ⟨phase, s.stopping⟩

/-- The task as its callers see it. -/
def current (s : Shared) : Periodic := s.loop ((s.held.bind (s.loops[·]?)).getD .idle)

/-- A loop goes on. -/
def put (s : Shared) (n : Nat) (p : Periodic) : Shared :=
  { s with loops := s.loops.set n p.phase }

/-- A start makes a loop. -/
def launch (s : Shared) : Shared :=
  { s with
    loops := s.loops ++ [s.current.start.phase]
    stopping := s.current.start.stopping
    held := some s.loops.length }

/-- A stop is called: every loop is told, and the stop waits for the one that the task holds. -/
def ask (s : Shared) : Shared :=
  { s with
    loops := s.loops.map fun phase => (s.loop phase).stop.phase
    stopping := true
    stops := s.held.toList ++ s.stops }

/-- The event of a loop that has just gone on to this. -/
def begun (s : Shared) (p : Periodic) : List Event :=
  if p.phase = .ticking then [.began s.now] else []

section

variable (cfg : PeriodicConfig)

/-- One thing that happens to a task that is shared, with the events that tell of it, the last
first. -/
inductive Step : Shared → List Event → Shared → Prop where
  /-- Time passes. -/
  | pass (s : Shared) (now : Instant) : Step s [] { s with now }
  /-- A task that does not run is started. -/
  | launch (s : Shared) (h : s.current.running = false) : Step s [.launched s.now] s.launch
  /-- A task that runs is started: that changes nothing. -/
  | ignored (s : Shared) (h : s.current.running = true) : Step s [] s
  /-- A stop is called, and has something to wait for. -/
  | ask (s : Shared) {n : Nat} (h : s.held = some n) : Step s [.asked s.now] s.ask
  /-- A stop is called, and returns at once. -/
  | askInVain (s : Shared) (h : s.held = none) : Step s [.halted s.now, .asked s.now] s.ask
  /-- A loop has a turn, after a start or before its end. -/
  | turn (s : Shared) {n : Nat} {phase : PeriodicPhase} (hloop : s.loops[n]? = some phase)
      (h : phase = .started ∨ phase = .leaving) :
      Step s (s.begun ((s.loop phase).turn cfg s.now)) (s.put n ((s.loop phase).turn cfg s.now))
  /-- The wait of a loop is over. -/
  | wake (s : Shared) {n : Nat} {due : Instant} (hloop : s.loops[n]? = some (.waiting due))
      (h : due.isDue s.now = true) :
      Step s (s.begun (s.loop (.waiting due)).wake) (s.put n (s.loop (.waiting due)).wake)
  /-- A tick ends. -/
  | finish (s : Shared) {n : Nat} (hloop : s.loops[n]? = some .ticking)
      (result : Except Failure Unit) :
      Step s [.ended s.now result]
        (s.put n ((s.loop .ticking).finishTick cfg s.now result).1)
  /-- A stop returns: the loop that it waited for has ended, and the task holds none. -/
  | halt (s : Shared) {n : Nat} {phase : PeriodicPhase} (hstop : n ∈ s.stops)
      (hloop : s.loops[n]? = some phase) (h : (s.loop phase).stopped? = some (.ok ())) :
      Step s [.halted s.now] { s with held := none, stops := s.stops.erase n }
  /-- A stop fails: the loop that it waited for was cancelled. -/
  | fail (s : Shared) {n : Nat} {phase : PeriodicPhase} {e : Failure} (hstop : n ∈ s.stops)
      (hloop : s.loops[n]? = some phase) (h : (s.loop phase).stopped? = some (.error e)) :
      Step s [] { s with stops := s.stops.erase n }

/-- What happens to a task from the beginning on, where each step is one that is allowed. -/
inductive Run (allowed : Shared → List Event → Prop) : List Event → Shared → Prop where
  /-- Nothing yet. -/
  | fresh : Run allowed [] fresh
  /-- One thing more. -/
  | step {past events : List Event} {s s' : Shared} (h : Run allowed past s)
      (hstep : Step cfg s events s') (hallowed : allowed s events) :
      Run allowed (events ++ past) s'

end

/-- Callers pay no heed to each other. -/
def Heedless (_ : Shared) (_ : List Event) : Prop := True

/-- No loop is made while a stop waits. -/
def Considerate (s : Shared) (events : List Event) : Prop :=
  ∀ time, .launched time ∈ events → s.stops = []

end Shared

/-! ## Loops -/

section loops

variable {cfg : PeriodicConfig} {p : Periodic} {now : Instant}

/-- A loop begins a tick on its turn only if the task is not to stop. -/
theorem stopping_of_turn (hbefore : p.phase ≠ .ticking)
    (hticking : (p.turn cfg now).phase = .ticking) : p.stopping = false := by
  unfold Periodic.turn Periodic.pause at hticking
  split at hticking
  · split at hticking
    · cases hstopping : p.stopping with
      | false => rfl
      | true => simp [hstopping] at hticking
    · split at hticking <;> cases hticking
  · cases hticking
  · exact absurd hticking hbefore

/-- A wait ends with a tick only if the task is not to stop. -/
theorem stopping_of_wake (hbefore : p.phase ≠ .ticking) (hticking : p.wake.phase = .ticking) :
    p.stopping = false := by
  unfold Periodic.wake at hticking
  split at hticking
  · cases hstopping : p.stopping with
    | false => rfl
    | true => simp [hstopping] at hticking
  · exact absurd hticking hbefore

/-- A tick that has ended is not in progress. -/
theorem phase_finishTick_ne (cfg : PeriodicConfig) (now : Instant) (result : Except Failure Unit)
    (p : Periodic) : (p.finishTick cfg now result).1.phase ≠ .ticking := by
  unfold Periodic.finishTick
  split
  · exact phase_pause_ne _ _ _ nofun nofun
  · split
    · nofun
    · exact phase_pause_ne _ _ _ nofun nofun

/-- A stop returns when the task does not run. -/
theorem running_of_stopped {result : Except Failure Unit} (h : p.stopped? = some result) :
    p.running = false := by
  unfold Periodic.stopped? at h
  unfold Periodic.running
  split at h <;> simp_all

end loops

/-! ## The law -/

/-- What may happen after what has happened, whoever calls. -/
structure Lawful (past : List Event) (e : Event) : Prop where
  /-- At most one tick is in progress. -/
  alone : 0 ≤ inProgress (e :: past) ∧ inProgress (e :: past) ≤ 1
  /-- No tick begins from a stop to the next start. -/
  begins : ∀ time, e = .began time → isStopped past = false
  /-- A stop returns when no tick is in progress. -/
  halts : ∀ time, e = .halted time → inProgress past = 0

/-- Everything in a history was lawful when it happened. -/
def AlwaysLawful (history : List Event) : Prop :=
  ∀ e past, e :: past <:+ history → Lawful past e

/-- What is lawful when it happens keeps a history lawful. -/
theorem AlwaysLawful.cons {past : List Event} {e : Event} (h : AlwaysLawful past)
    (he : Lawful past e) : AlwaysLawful (e :: past) := by
  intro e' past' hsuffix
  rcases List.suffix_cons_iff.mp hsuffix with heq | hsuffix
  · cases heq
    exact he
  · exact h e' past' hsuffix

namespace Shared

/-- What is known of a task and of the history that led there. -/
structure Known (history : List Event) (s : Shared) : Prop where
  /-- Only the loop that the task holds may run. -/
  others : ∀ n phase, s.loops[n]? = some phase → s.held ≠ some n → (s.loop phase).running = false
  /-- The stops that wait do so for that one. -/
  stops : ∀ n ∈ s.stops, s.held = some n ∨ s.held = none
  /-- The history tells whether it is to stop. -/
  told : s.current.running = true → isStopped history = s.stopping
  /-- The history tells whether a tick is in progress. -/
  progress : inProgress history = if s.current.phase = .ticking then 1 else 0
  /-- What happened was lawful. -/
  lawful : AlwaysLawful history

section known

variable {cfg : PeriodicConfig} {s s' : Shared} {history events : List Event} {n : Nat}
  {phase : PeriodicPhase}

/-- Of a task that was never started nothing is to be known. -/
theorem known_fresh : Known [] fresh where
  others n phase hloop := by
    cases hloop
  stops n hn := absurd hn List.not_mem_nil
  told hrunning := by
    cases hrunning
  progress := rfl
  lawful e past hsuffix := absurd (List.suffix_nil.mp hsuffix) nofun

/-- The task is seen as the loop that it holds. -/
theorem current_of_held (hheld : s.held = some n) (hloop : s.loops[n]? = some phase) :
    s.current = s.loop phase := by
  simp [current, hheld, hloop]

/-- A loop that runs is the one that the task holds. -/
theorem Known.held (h : Known history s) (hloop : s.loops[n]? = some phase)
    (hrunning : (s.loop phase).running = true) : s.held = some n := by
  by_contra hheld
  rw [h.others n phase hloop hheld] at hrunning
  cases hrunning

/-- While the task does not run no tick is in progress. -/
theorem Known.progress_of_over (h : Known history s) (hover : s.current.running = false) :
    inProgress history = 0 := by
  rw [h.progress, if_neg]
  intro hticking
  rw [Periodic.running, hticking] at hover
  cases hover

/-- The loop that runs goes on. -/
theorem Known.go (h : Known history s) (hloop : s.loops[n]? = some phase)
    (hrunning : (s.loop phase).running = true) (p : Periodic)
    (hstopped : isStopped (events ++ history) = isStopped history)
    (hprogress : inProgress (events ++ history) = if p.phase = .ticking then 1 else 0)
    (hlawful : AlwaysLawful (events ++ history)) : Known (events ++ history) (s.put n p) := by
  have hheld := h.held hloop hrunning
  have hcurrent := current_of_held hheld hloop
  have hthere : n < s.loops.length := (List.getElem?_eq_some_iff.mp hloop).1
  have hput : (s.put n p).current.phase = p.phase := by
    simp [put, current, loop, hheld, hthere]
  refine ⟨fun m phase' hloop' hother => ?_, h.stops, fun _ => ?_, hput ▸ hprogress, hlawful⟩
  · have hne : n ≠ m := fun heq => hother (heq ▸ hheld)
    have hsame : s.loops[m]? = some phase' := by
      simpa [put, List.getElem?_set_ne hne] using hloop'
    exact h.others m phase' hsame hother
  · exact hstopped.trans (h.told (hcurrent ▸ hrunning))

/-- A loop has a turn between two ticks; it begins one only if the task is not to stop. -/
theorem Known.begin (h : Known history s) (hloop : s.loops[n]? = some phase)
    (hrunning : (s.loop phase).running = true) (hphase : phase ≠ .ticking) (p : Periodic)
    (hp : p.phase = .ticking → s.stopping = false) :
    Known (s.begun p ++ history) (s.put n p) := by
  have hcurrent := current_of_held (h.held hloop hrunning) hloop
  have hnone : inProgress history = 0 := by
    rw [h.progress, hcurrent]
    exact if_neg hphase
  unfold begun
  by_cases hticking : p.phase = .ticking
  · have hgoing : isStopped history = false :=
      (h.told (hcurrent ▸ hrunning)).trans (hp hticking)
    have hone : inProgress (.began s.now :: history) = 1 := by
      rw [inProgress_began, hnone]
      rfl
    have hlawful : Lawful history (.began s.now) :=
      ⟨by rw [hone]; decide, fun _ _ => hgoing, nofun⟩
    rw [if_pos hticking]
    exact h.go hloop hrunning p rfl (hone.trans (if_pos hticking).symm) (h.lawful.cons hlawful)
  · rw [if_neg hticking]
    exact h.go hloop hrunning p rfl (hnone.trans (if_neg hticking).symm) h.lawful

/-- What is known stays right when a tick ends. -/
theorem Known.finish (h : Known history s) (hloop : s.loops[n]? = some .ticking)
    (result : Except Failure Unit) (p : Periodic) (hp : p.phase ≠ .ticking) :
    Known ([.ended s.now result] ++ history) (s.put n p) := by
  have hcurrent := current_of_held (h.held hloop rfl) hloop
  have hnone : inProgress (.ended s.now result :: history) = 0 := by
    rw [inProgress_ended, h.progress, hcurrent]
    rfl
  have hlawful : Lawful history (.ended s.now result) :=
    ⟨by rw [hnone]; decide, nofun, nofun⟩
  exact h.go hloop rfl p rfl (hnone.trans (if_neg hp).symm) (h.lawful.cons hlawful)

/-- What is known stays right when a loop is made and no stop waits. -/
theorem Known.launch (h : Known history s) (hover : s.current.running = false)
    (hstops : s.stops = []) : Known ([.launched s.now] ++ history) s.launch := by
  have hnone := h.progress_of_over hover
  have hstart : s.current.start = ⟨.started, false⟩ := by
    rw [Periodic.start, hover]
    rfl
  have hnew : s.launch.loops[s.loops.length]? = some .started := by
    rw [Shared.launch, hstart, List.getElem?_concat_length]
  have hlawful : Lawful history (.launched s.now) :=
    ⟨by rw [inProgress_launched, hnone]; decide, nofun, nofun⟩
  refine ⟨fun m phase' hloop hother => ?_, fun m hm => ?_, fun _ => ?_, ?_, h.lawful.cons hlawful⟩
  · have hne : m ≠ s.loops.length := fun heq => hother (congrArg some heq.symm)
    have hold : s.loops[m]? = some phase' := by
      have hlength := (List.getElem?_eq_some_iff.mp hloop).1
      simp only [Shared.launch, List.length_append, List.length_singleton] at hlength
      rwa [Shared.launch, List.getElem?_append_left (by omega)] at hloop
    by_cases hheld : s.held = some m
    · rw [current_of_held hheld hold] at hover
      exact hover
    · exact h.others m phase' hold hheld
  · rw [Shared.launch, hstops] at hm
    exact absurd hm List.not_mem_nil
  · exact (congrArg Periodic.stopping hstart).symm
  · rw [current_of_held rfl hnew]
    exact inProgress_launched.trans hnone

/-- A stop leaves the loop of the task where a stop of its own leaves it. -/
theorem phase_ask (s : Shared) : s.ask.current.phase = s.current.stop.phase := by
  unfold Shared.ask current
  cases s.held with
  | none => rfl
  | some n =>
    simp only [Option.bind_some, List.getElem?_map]
    cases s.loops[n]? <;> rfl

/-- A stop leaves a loop that does not run as it is, and a tick in progress too. -/
theorem phase_stop (p : Periodic) :
    (p.stop.running = p.running) ∧ (p.stop.phase = .ticking ↔ p.phase = .ticking) := by
  unfold Periodic.stop
  rcases p with ⟨_ | _ | _ | _ | _ | _, _⟩ <;> simp [Periodic.running]

/-- What is known stays right when a stop is called. -/
theorem Known.ask (h : Known history s) : Known (.asked s.now :: history) s.ask := by
  have hlawful : Lawful history (.asked s.now) := by
    refine ⟨?_, nofun, nofun⟩
    rw [inProgress_asked, h.progress]
    split <;> decide
  refine ⟨fun m phase' hloop hother => ?_, fun m hm => ?_, fun _ => rfl, ?_, h.lawful.cons hlawful⟩
  · obtain ⟨phase, hold, rfl⟩ : ∃ phase, s.loops[m]? = some phase ∧
        (s.loop phase).stop.phase = phase' := by
      simpa [Shared.ask] using hloop
    have hover := h.others m phase hold hother
    rwa [← (phase_stop (s.loop phase)).1] at hover
  · rcases List.mem_append.mp hm with hnew | hwaits
    · exact .inl (Option.mem_toList.mp hnew)
    · exact h.stops m hwaits
  · rw [inProgress_asked, h.progress, phase_ask]
    exact if_congr (phase_stop s.current).2.symm rfl rfl

/-- A stop returns while the task does not run. -/
theorem Known.returned (h : Known history s) (hover : s.current.running = false) :
    Known (.halted s.now :: history) s := by
  have hnone := h.progress_of_over hover
  have hlawful : Lawful history (.halted s.now) :=
    ⟨by rw [inProgress_halted, hnone]; decide, nofun, fun _ _ => hnone⟩
  refine ⟨h.others, h.stops, fun hrunning => ?_, ?_, h.lawful.cons hlawful⟩
  · cases hover.symm.trans hrunning
  · rw [inProgress_halted, h.progress]

/-- The loop that a stop waited for has ended, so no loop runs that the task might forget. -/
theorem Known.release (h : Known history s) (hstop : n ∈ s.stops)
    (hloop : s.loops[n]? = some phase) (hover : (s.loop phase).running = false) :
    Known history { s with held := none, stops := s.stops.erase n } := by
  refine ⟨fun m phase' hloop' _ => ?_, fun _ _ => .inr rfl, nofun, ?_, h.lawful⟩
  · by_cases hheld : s.held = some m
    · obtain rfl : n = m := by
        rcases h.stops n hstop with hsame | hnone
        · exact Option.some.inj (hsame.symm.trans hheld)
        · cases hnone.symm.trans hheld
      cases hloop.symm.trans hloop'
      exact hover
    · exact h.others m phase' hloop' hheld
  · refine h.progress_of_over ?_
    rcases h.stops n hstop with hheld | hnone
    · rwa [current_of_held hheld hloop]
    · simp [current, hnone, loop, Periodic.running]

/-- What happens keeps what is known, if no loop is made while a stop waits. -/
theorem Step.known (hstep : Step cfg s events s') (hconsiderate : Considerate s events)
    (h : Known history s) : Known (events ++ history) s' := by
  cases hstep with
  | pass now => exact ⟨h.others, h.stops, h.told, h.progress, h.lawful⟩
  | launch hover => exact h.launch hover (hconsiderate _ List.mem_cons_self)
  | ignored _ => exact h
  | ask _ => exact h.ask
  | askInVain hheld =>
    refine h.ask.returned ?_
    simp [Shared.ask, current, hheld, loop, Periodic.running]
  | @turn _ phase hloop hturn =>
    have hbetween : phase ≠ .ticking := by
      rcases hturn with rfl | rfl <;> simp
    have hrunning : (s.loop phase).running = true := by
      rcases hturn with rfl | rfl <;> rfl
    exact h.begin hloop hrunning hbetween _ (stopping_of_turn hbetween)
  | @wake _ due hloop _ =>
    have hbetween : PeriodicPhase.waiting due ≠ .ticking := by simp
    exact h.begin hloop rfl hbetween _ (stopping_of_wake hbetween)
  | finish hloop result => exact h.finish hloop result _ (phase_finishTick_ne _ _ _ _)
  | halt hstop hloop hdone =>
    exact (h.release hstop hloop (running_of_stopped hdone)).returned rfl
  | fail hstop hloop _ =>
    exact ⟨h.others, fun m hm => h.stops m (List.mem_of_mem_erase hm), h.told, h.progress, h.lawful⟩

/-- It is right after every run whose callers are considerate. -/
theorem Run.known (hrun : Run cfg Considerate history s) : Known history s := by
  induction hrun with
  | fresh => exact known_fresh
  | step _ hstep hconsiderate ih => exact hstep.known hconsiderate ih

end known

/-- Whoever starts and stops a task, its ticks do not overlap, none begins after a stop, and a stop
returns when none is in progress, if no start makes a loop while a stop waits. -/
theorem shared_lawful {cfg : PeriodicConfig} {history : List Event} {s : Shared}
    (hrun : Run cfg Considerate history s) : AlwaysLawful history :=
  hrun.known.lawful

/-! ### A loop that is forgotten -/

/-- A task that ticks at once and then every second. -/
def hourglass : PeriodicConfig := ⟨"outbox-publisher", Span.ofSeconds 1, true⟩

/-- The task is stopped in its first tick.  When that has ended, and before the stop returns, it is
started again; the stop then makes it forget the new loop, so another stop returns at once, in the
middle of a tick. -/
theorem forgotten_loop :
    ¬ ∀ (cfg : PeriodicConfig) (history : List Event) (s : Shared),
      Run cfg Heedless history s → AlwaysLawful history := by
  intro h
  have hfirst := ((.fresh : Run hourglass Heedless [] fresh).step (.launch fresh rfl) trivial).step
    (.turn _ (n := 0) rfl (.inl rfl)) trivial
  have hstopped := ((hfirst.step (.ask _ rfl) trivial).step
    (.finish _ (n := 0) rfl (.ok ())) trivial).step (.turn _ (n := 0) rfl (.inr rfl)) trivial
  have hagain := ((hstopped.step (.launch _ rfl) trivial).step
    (.halt _ (n := 0) (List.mem_singleton_self 0) rfl rfl) trivial).step
    (.turn _ (n := 1) rfl (.inl rfl)) trivial
  have hlast := hagain.step (.askInVain _ rfl) trivial
  have hlawful := h _ _ _ hlast _ _ List.suffix_rfl
  exact absurd (hlawful.halts _ rfl) (by decide)

end Shared

end EventRelay.Simulation.PeriodicRun
