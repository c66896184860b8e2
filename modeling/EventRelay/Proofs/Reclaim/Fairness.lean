import EventRelay.Proofs.Reclaim.Play
import EventRelay.Proofs.Reclaim.Rotation
import Mathlib.Data.List.Chain
import Mathlib.Tactic.Ring

/-!
# Whether every idle entry has its turn

Each take-over begins with the first idle entry, whatever was taken over before.  An entry whose
callback always raises stays pending, so it is taken over again once it is idle again; if that is
before the consumer has been through all entries, those behind it never have their turn.  If it is
later, they do.

* `Recurrence`: a consumer takes over an entry twice while another one stays pending.
* `Recurrence.Brisk`: it goes through all entries ahead of that one within the time of idleness.
* `idle_entry_dispatched`: then the other entry has its turn.
* `idle_entry_starves`: otherwise it may have none.
-/

namespace EventRelay

namespace Loop

open Consumer

variable {c : ConsumerConfig} {partition : Int} {s s' : Loop} {events log : List Event}
  {entry : String} {entries : List String} {start time : Nat}

/-! ## Events of a run -/

/-- The time of a take-over is one of the rounds. -/
theorem mem_rounds (h : .took time entries ∈ log) : time ∈ rounds log :=
  List.mem_filterMap.mpr ⟨_, h, rfl⟩

/-- What is taken over is taken. -/
theorem mem_taken (h : .took time entries ∈ log) (hentry : entry ∈ entries) :
    entry ∈ taken log :=
  List.mem_flatMap.mpr ⟨_, h, hentry⟩

/-- What is handed over is taken by the consumer or lent to others. -/
theorem taken_or_lent_of_handed (h : entry ∈ handed log) :
    entry ∈ taken log ∨ ∃ entries, .lent entries ∈ log ∧ entry ∈ entries := by
  obtain ⟨event, hevent, hmem⟩ := List.mem_flatMap.mp h
  cases event with
  | took time entries => exact .inl (mem_taken hevent hmem)
  | lent entries => exact .inr ⟨entries, hevent, hmem⟩
  | dispatched entry => exact absurd hmem List.not_mem_nil
  | interrupted => exact absurd hmem List.not_mem_nil

/-- Time goes on from one take-over to the next. -/
theorem Run.sorted (h : Run c partition s log s') (horderly : s.Orderly c partition) :
    (s.time :: rounds log).Pairwise (· ≤ ·) := by
  induction h with
  | done s => exact List.pairwise_singleton _ _
  | step hstep _ ih =>
    obtain ⟨horderly', htime, -⟩ := hstep.spec horderly
    obtain ⟨hfirst, hrest⟩ := List.pairwise_cons.mp (ih horderly')
    have hlater := fun t ht => Nat.le_trans htime (hfirst t ht)
    rw [rounds_append]
    rcases hstep.round horderly with ⟨hnone, -⟩ | ⟨hone, -, -⟩
    · rw [hnone]
      exact List.pairwise_cons.mpr ⟨hlater, hrest⟩
    · rw [hone]
      refine List.pairwise_cons.mpr ⟨fun t ht => ?_, List.pairwise_cons.mpr ⟨hlater, hrest⟩⟩
      rcases List.mem_cons.mp ht with rfl | ht
      · exact Nat.le_refl _
      · exact hlater t ht

/-! ## An entry that is taken over twice -/

/-- An entry was handed over, at some time or later, and it is not earlier now. -/
def Handed (c : ConsumerConfig) (partition : Int) (entry : String) (start : Nat) (s : Loop) :
    Prop :=
  (s.group c partition).Since start [entry] ∧ start ≤ s.time

/-- An entry that was handed over was so a step later. -/
theorem Handed.step (h : Handed c partition entry start s) (hstep : Step c partition s events s')
    (horderly : s.Orderly c partition) (hquiet : .interrupted ∉ events) :
    Handed c partition entry start s' := by
  obtain ⟨-, htime, hbecomes⟩ := hstep.spec horderly
  exact ⟨h.1.becomes (hbecomes hquiet) h.2, Nat.le_trans h.2 htime⟩

/-- An entry that a step takes over was handed over at its time. -/
theorem Step.handed (h : Step c partition s events s') (horderly : s.Orderly c partition)
    (hquiet : .interrupted ∉ events) (htook : .took time entries ∈ events)
    (hentry : entry ∈ entries) : Handed c partition entry time s' := by
  obtain ⟨-, htime, hbecomes⟩ := h.spec horderly
  have hmem := mem_rounds htook
  rcases h.round horderly with ⟨hnone, -⟩ | ⟨hone, hhanded, hpicks⟩
  · rw [hnone] at hmem
    exact absurd hmem List.not_mem_nil
  · rw [hone] at hmem
    rw [List.mem_singleton.mp hmem]
    have hhands := hbecomes hquiet
    rw [hhanded] at hhands
    have hsince := hpicks.since hhands horderly.inOrder
    have htaken := mem_taken htook hentry
    refine ⟨⟨fun x hx => ?_, fun q hq hx => ?_⟩, htime⟩
    · exact hsince.handed x (List.mem_singleton.mp hx ▸ htaken)
    · exact hsince.since q hq (List.mem_singleton.mp hx ▸ htaken)

/-- An entry that was handed over was so at the end of a run. -/
theorem Handed.run (h : Handed c partition entry start s) (hrun : Run c partition s log s')
    (horderly : s.Orderly c partition) (hquiet : .interrupted ∉ log) :
    Handed c partition entry start s' := by
  induction hrun with
  | done s => exact h
  | step hstep _ ih =>
    rw [List.mem_append, not_or] at hquiet
    exact ih (h.step hstep horderly hquiet.1) (hstep.spec horderly).orderly hquiet.2

/-- An entry that a run takes over was handed over by its end. -/
theorem Run.handed (h : Run c partition s log s') (horderly : s.Orderly c partition)
    (hquiet : .interrupted ∉ log) (htook : .took time entries ∈ log) (hentry : entry ∈ entries) :
    Handed c partition entry time s' := by
  induction h with
  | done s => exact absurd htook List.not_mem_nil
  | step hstep hrest ih =>
    rw [List.mem_append, not_or] at hquiet
    have horderly' := (hstep.spec horderly).orderly
    rcases List.mem_append.mp htook with hnow | hlater
    · exact (hstep.handed horderly hquiet.1 hnow hentry).run hrest horderly' hquiet.2
    · exact ih horderly' hquiet.2 hlater

/-- An entry that is taken over again has been idle in the meantime. -/
theorem Run.idle_again (h : Run c partition s log s') (horderly : s.Orderly c partition)
    (hquiet : .interrupted ∉ log) (hhanded : Handed c partition entry start s)
    (htook : .took time entries ∈ log) (hentry : entry ∈ entries) :
    start + c.idleMs ≤ time := by
  induction h with
  | done s => exact absurd htook List.not_mem_nil
  | step hstep _ ih =>
    rw [List.mem_append, not_or] at hquiet
    rcases List.mem_append.mp htook with hnow | hlater
    · have hmem := mem_rounds hnow
      rcases hstep.round horderly with ⟨hnone, -⟩ | ⟨hone, -, hpicks⟩
      · rw [hnone] at hmem
        exact absurd hmem List.not_mem_nil
      · rw [hone] at hmem
        obtain ⟨q, hq, htext, hidle⟩ := hpicks.idle entry (mem_taken hnow hentry)
        have hsince := hhanded.1.since q hq (htext ▸ List.mem_singleton_self _)
        rw [List.mem_singleton.mp hmem]
        omega
    · exact ih (hstep.spec horderly).orderly hquiet.2 (hhanded.step hstep horderly hquiet.1) hlater

/-! ## The pace of take-overs -/

section pace

variable {a b gap : Nat} {times : List Nat}

/-- Times at a pace reach no further than the pace for each of them. -/
theorem le_of_pace (hpace : (a :: times).IsChain fun t t' => t' ≤ t + gap) (hb : b ∈ times) :
    b ≤ a + gap * times.length := by
  induction times generalizing a with
  | nil => exact absurd hb List.not_mem_nil
  | cons t times ih =>
    obtain ⟨hstep, hrest⟩ := List.isChain_cons_cons.mp hpace
    rw [List.length_cons, Nat.mul_add, Nat.mul_one]
    rcases List.mem_cons.mp hb with rfl | hb
    · omega
    · have := ih hrest hb
      omega

/-- Where some time is not counted any more, the times that are counted last until then. -/
theorem le_counted_of_pace (hpace : (a :: times).IsChain fun t t' => t' ≤ t + gap)
    (hb : b ∈ a :: times) (hlate : start + c.idleMs ≤ b) :
    start + c.idleMs ≤ (a + gap * (1 + counted c start times) : Nat) := by
  induction times generalizing a with
  | nil =>
    rw [List.mem_singleton.mp hb] at hlate
    omega
  | cons t times ih =>
    obtain ⟨hstep, hrest⟩ := List.isChain_cons_cons.mp hpace
    by_cases hearly : start + c.idleMs ≤ (t : Int)
    · have hgap : gap ≤ gap * (1 + counted c start (t :: times)) :=
        Nat.le_mul_of_pos_right _ (by omega)
      omega
    · have hcounted : counted c start (t :: times) = 1 + counted c start times := by
        unfold counted
        rw [List.countP_cons_of_pos (by simpa using hearly), Nat.add_comm]
      have hgap : gap * (1 + counted c start (t :: times)) =
          gap + gap * (1 + counted c start times) := by
        rw [hcounted, Nat.mul_add, Nat.mul_one]
      rcases List.mem_cons.mp hb with rfl | hb
      · omega
      · have := ih hrest hb
        omega

/-- Take-overs that come one after the other are frequent enough within the time of idleness, if
they go on for that long after one before them. -/
theorem idleMs_le_of_pace {first last : Nat}
    (hpace : (a :: first :: times).IsChain fun t t' => t' ≤ t + gap) (hlast : last ∈ first :: times)
    (hmost : ∀ t ∈ first :: times, t ≤ last) (hagain : a + c.idleMs ≤ last) :
    c.idleMs ≤ (gap * (1 + counted c first times) : Nat) := by
  by_cases hlate : first + c.idleMs ≤ last
  · have := le_counted_of_pace (List.isChain_cons_cons.mp hpace).2 hlast hlate
    omega
  · -- all of them come before the first one's entries are idle again
    have hall : counted c first times = times.length := by
      refine List.countP_eq_length.mpr fun t ht => decide_eq_true ?_
      have := hmost t (List.mem_cons_of_mem _ ht)
      omega
    have := le_of_pace hpace hlast
    rw [List.length_cons, Nat.add_comm times.length, ← hall] at this
    omega

end pace

/-! ## Whether the others have their turn -/

/-- A stretch of a run in which the consumer takes over an entry twice, while another one stays
pending. -/
structure Recurrence (c : ConsumerConfig) (partition : Int) where
  /-- Before the first of the two take-overs. -/
  start : Loop
  /-- While the first batch is under way. -/
  early : Loop
  /-- While the second batch is under way. -/
  late : Loop
  /-- When the second batch is done with. -/
  finish : Loop
  /-- When the first batch was taken over. -/
  firstTime : Nat
  /-- The first batch. -/
  firstBatch : List String
  /-- What has happened of it. -/
  opening : List Event
  /-- What happens then until the second take-over. -/
  between : List Event
  /-- When the second batch was taken over. -/
  secondTime : Nat
  /-- The second batch. -/
  secondBatch : List String
  /-- What has happened of it. -/
  reopening : List Event
  /-- What remains to happen. -/
  closing : List Event
  /-- A run may come to its beginning. -/
  reachable : Reachable c partition start
  /-- It goes on to the first batch. -/
  toEarly : Run c partition start (.took firstTime firstBatch :: opening) early
  /-- It goes on to the second batch. -/
  toLate : Run c partition early (between ++ .took secondTime secondBatch :: reopening) late
  /-- It goes on to its end. -/
  toFinish : Run c partition late closing finish
  /-- The first batch is still under way. -/
  opening_rounds : rounds opening = []
  /-- The second batch is still under way. -/
  reopening_rounds : rounds reopening = []
  /-- No other batch is taken over after it. -/
  closing_rounds : rounds closing = []
  /-- The consumer has been through all of it. -/
  finished : owed finish.move.state = []
  /-- The entry that is taken over twice. -/
  repeated : String
  /-- It is in the first batch. -/
  mem_firstBatch : repeated ∈ firstBatch
  /-- It is in the second batch. -/
  mem_secondBatch : repeated ∈ secondBatch
  /-- The other entry, as it is pending at first. -/
  other : Pending
  /-- It is pending. -/
  other_mem : other ∈ (start.group c partition).pending
  /-- It is idle while the first batch is under way. -/
  other_idle : other.since + c.idleMs ≤ early.time
  /-- It is still pending while the second batch is under way. -/
  other_stays : other.id ∈ late.waiting c partition

namespace Recurrence

variable (r : Recurrence c partition) {gap : Nat}

/-- All that happens. -/
def history : List Event :=
  (.took r.firstTime r.firstBatch :: r.opening) ++
    ((r.between ++ .took r.secondTime r.secondBatch :: r.reopening) ++ r.closing)

/-- How many entries are pending ahead of the other one at first. -/
def ahead : Nat := (r.start.group c partition).pending.countP (·.id.lt r.other.id)

/-- The consumer works undisturbed, and it is through with the entries ahead of the other one before
the first of them are idle again: they fit into one batch, or into the batches that it takes over
within that time at its slowest pace.  Besides, a take-over comes as far as the other entry: the one
here always does, and one that looks at ten pending entries for each that it may hand over does so
because of `within`. -/
structure Brisk (gap : Nat) : Prop where
  /-- Nothing interrupts it. -/
  uninterrupted : .interrupted ∉ r.history
  /-- No other consumer takes over the other entry. -/
  kept : ∀ entries, .lent entries ∈ r.history → r.other.id.text ∉ entries
  /-- From one take-over to the next no more time passes than that. -/
  pace : (r.firstTime :: rounds r.between ++ [r.secondTime]).IsChain fun t t' => t' ≤ t + gap
  /-- The batches taken over within the time of idleness have room for the entries ahead. -/
  room : r.ahead < c.batch ∨ r.ahead * gap < c.batch * c.idleMs
  /-- A limited search comes to the other entry, too. -/
  within : r.ahead < 10 * c.batch

/-- The stretches of a recurrence are one run. -/
theorem run_history : Run c partition r.start r.history r.finish :=
  r.toEarly.append (r.toLate.append r.toFinish)

/-- What is never set to work on is not handed over either. -/
theorem not_handed (h : r.Brisk gap) (hnever : .dispatched r.other.id.text ∉ r.history) :
    r.other.id.text ∉ handed r.history := by
  intro hhanded
  rcases taken_or_lent_of_handed hhanded with htaken | ⟨entries, hlent, hmem⟩
  · have hturn := r.run_history.dispatched r.reachable.asks h.uninterrupted (.inr htaken)
    rcases hturn with hdone | howed
    · exact hnever hdone
    · rw [r.finished] at howed
      exact absurd howed List.not_mem_nil
  · exact h.kept entries hlent hmem

/-- The rounds up to the second take-over are those in between and that one. -/
theorem rounds_toLate : rounds (r.between ++ .took r.secondTime r.secondBatch :: r.reopening) =
    rounds r.between ++ [r.secondTime] := by
  rw [rounds_append]
  exact congrArg _ (congrArg _ r.reopening_rounds)

/-- What is not in the whole is in no stretch of it. -/
theorem not_mem_history {event : Event} (h : event ∉ r.history) :
    event ∉ Event.took r.firstTime r.firstBatch :: r.opening ∧
      event ∉ r.between ++ .took r.secondTime r.secondBatch :: r.reopening ∧
      event ∉ r.closing := by
  unfold history at h
  rw [List.mem_append, List.mem_append, not_or, not_or] at h
  exact h

/-- The entry that is taken over again has been idle in the meantime. -/
theorem idle_again (h : r.Brisk gap) : r.firstTime + c.idleMs ≤ r.secondTime := by
  obtain ⟨hfirst, hsecond, -⟩ := r.not_mem_history h.uninterrupted
  have hhanded := r.toEarly.handed r.reachable.orderly hfirst List.mem_cons_self r.mem_firstBatch
  exact r.toLate.idle_again (r.toEarly.orderly r.reachable.orderly) hsecond hhanded
    (List.mem_append_right _ List.mem_cons_self) r.mem_secondBatch

/-- While the other entry is not set to work on, batches are filled with entries ahead of it. -/
theorem batches_le (h : r.Brisk gap) (hnever : .dispatched r.other.id.text ∉ r.history)
    {first : Nat} {times : List Nat}
    (htimes : rounds r.between ++ [r.secondTime] = first :: times) :
    c.batch.toNat * (1 + counted c first times) ≤ r.ahead := by
  have hspares : Spares r.other.id r.history := ⟨h.uninterrupted, r.not_handed h hnever⟩
  obtain ⟨hopening, hrest⟩ := hspares.of_append
  obtain ⟨hlater, -⟩ := hrest.of_append
  have hstill := r.toEarly.still r.reachable.orderly hopening
    (r.reachable.orderly.inOrder.still r.other_mem)
  have hle := r.toLate.batches_le (r.toEarly.orderly r.reachable.orderly) hlater hstill
    r.other_idle r.other_stays (r.rounds_toLate.trans htimes)
  rw [List.length_map, ← List.countP_eq_length_filter] at hle
  exact hle

/-- Within the time of idleness the take-overs are as frequent as their pace says. -/
theorem idleMs_le (h : r.Brisk gap) {first : Nat} {times : List Nat}
    (htimes : rounds r.between ++ [r.secondTime] = first :: times) :
    c.idleMs ≤ (gap * (1 + counted c first times) : Nat) := by
  have hpace := h.pace
  rw [List.cons_append, htimes] at hpace
  have hlast : r.secondTime ∈ first :: times :=
    htimes ▸ List.mem_append_right _ (List.mem_singleton_self _)
  refine idleMs_le_of_pace hpace hlast (fun t ht => ?_) (r.idle_again h)
  have hsorted := (r.toLate.sorted (r.toEarly.orderly r.reachable.orderly)).of_cons
  rw [r.rounds_toLate] at hsorted
  rw [← htimes] at ht
  rcases List.mem_append.mp ht with ht | ht
  · exact (List.pairwise_append.mp hsorted).2.2 t ht _ (List.mem_singleton_self _)
  · exact Nat.le_of_eq (List.mem_singleton.mp ht)

end Recurrence

/-- A consumer that takes over an entry twice sets to work, in the meantime, on every other entry
that was idle and stays pending, if it goes through the entries ahead of it within the time of
idleness. -/
theorem idle_entry_dispatched (r : Recurrence c partition) (hbatch : 1 ≤ c.batch) {gap : Nat}
    (h : r.Brisk gap) : .dispatched r.other.id.text ∈ r.history := by
  by_contra hnever
  obtain ⟨first, times, htimes⟩ :
      ∃ first times, rounds r.between ++ [r.secondTime] = first :: times :=
    List.exists_cons_of_ne_nil (by simp)
  have hbatches := r.batches_le h hnever htimes
  have hidle := r.idleMs_le h htimes
  obtain ⟨batch, hnat⟩ := Int.eq_ofNat_of_zero_le (show 0 ≤ c.batch by omega)
  rw [hnat, Int.toNat_natCast] at hbatches
  rcases h.room with hroom | hroom
  · -- the first of the batches would have had room for the entry
    rw [hnat, Int.ofNat_lt] at hroom
    have hone : batch * 1 ≤ batch * (1 + counted c first times) :=
      Nat.mul_le_mul_left _ (Nat.le_add_right _ _)
    omega
  · refine absurd hroom (Int.not_lt.mpr ?_)
    calc c.batch * c.idleMs
        ≤ c.batch * (gap * (1 + counted c first times) : Nat) :=
          Int.mul_le_mul_of_nonneg_left hidle (by omega)
      _ = (batch * (1 + counted c first times) : Nat) * gap := by
          rw [hnat]
          push_cast
          ring
      _ ≤ r.ahead * gap :=
          Int.mul_le_mul_of_nonneg_right (Int.ofNat_le.mpr hbatches) (Int.natCast_nonneg gap)

/-! ### Two entries whose callbacks always raise -/

/-- A consumer of user events that takes over one entry at a time, once that has been idle for so
many milliseconds, and waits for new ones for a second. -/
def oneByOne (idleMs : Int) : ConsumerConfig :=
  ⟨"user-events", "tasks", "second", 1, 1, 1000, idleMs⟩

/-- So many seconds later than a run begins. -/
def later (n : Int) : Instant := Instant.origin + Span.ofSeconds n

/-- What the callback raises. -/
def poison : Failure := .raised "ValueError" "poison"

/-- Another consumer was given two entries and left them idle.  This one has started and looks for
such entries. -/
def left (c : ConsumerConfig) : Loop :=
  ((⟨Instant.origin, [], Consumer.start⟩ : Loop).plays c 0
    [.create, .append [("payload", "1")], .append [("payload", "2")], .share "first" 10,
      .pass (later 4), .serve]).1

/-- The state with the two entries left idle is one of a run. -/
theorem reachable_left (c : ConsumerConfig) : Reachable c 0 (left c) :=
  ⟨Instant.origin, _, run_plays _ _⟩

/-- The second of the two entries, as it is pending at first. -/
def second : Pending := ⟨⟨1000000, 1⟩, "first", 1000000, 1⟩

/-- It takes over the first one, and the callback raises. -/
def opened (c : ConsumerConfig) : Loop := ((left c).plays c 0 [.serve, .raise poison]).1

/-- That happens until it has taken over the first one again. -/
def resumed (c : ConsumerConfig) (deeds : List Deed) : Loop := ((opened c).plays c 0 deeds).1

/-- The callback raises again. -/
def ended (c : ConsumerConfig) (deeds : List Deed) : Loop :=
  ((resumed c deeds).plays c 0 [.raise poison]).1

/-- It waits for new entries in vain, and takes over the second one; it waits again and finds
nothing idle; it waits once more. -/
def threeRounds : List Deed :=
  [.pass (later 5), .serve, .serve, .raise poison, .pass (later 6), .serve, .serve,
    .pass (later 7), .serve, .serve]

/-- A consumer that leaves entries idle for three seconds takes over the second one before the first
one again. -/
def patient : Recurrence (oneByOne 3000) 0 where
  start := left _
  early := opened _
  late := resumed _ threeRounds
  finish := ended _ threeRounds
  firstTime := 1004000
  firstBatch := ["1000000-0"]
  opening := [.dispatched "1000000-0"]
  between := [.took 1005000 ["1000000-1"], .dispatched "1000000-1", .took 1006000 []]
  secondTime := 1007000
  secondBatch := ["1000000-0"]
  reopening := [.dispatched "1000000-0"]
  closing := []
  reachable := reachable_left _
  toEarly := run_of_plays (by decide +kernel)
  toLate := run_of_plays (by decide +kernel)
  toFinish := run_of_plays (by decide +kernel)
  opening_rounds := rfl
  reopening_rounds := rfl
  closing_rounds := rfl
  finished := by decide +kernel
  repeated := "1000000-0"
  mem_firstBatch := by decide
  mem_secondBatch := by decide
  other := second
  other_mem := by decide +kernel
  other_idle := by decide +kernel
  other_stays := by decide +kernel

/-- The patient consumer comes to the second entry. -/
theorem idle_entry_dispatched_of_patient :
    1 ≤ (oneByOne 3000).batch ∧ patient.Brisk 1000 ∧
      .dispatched patient.other.id.text ∈ patient.history := by
  have hbrisk : patient.Brisk 1000 := by
    constructor
    case uninterrupted => decide +kernel
    case kept => exact fun entries h => absurd h (by simp [Recurrence.history, patient])
    case pace => decide +kernel
    case room => exact .inr (by decide +kernel)
    case within => decide +kernel
  exact ⟨by decide, hbrisk, idle_entry_dispatched patient (by decide) hbrisk⟩

/-- A consumer that leaves entries idle for one second takes over the first one again as soon as it
has waited for new ones. -/
def hasty : Recurrence (oneByOne 1000) 0 where
  start := left _
  early := opened _
  late := resumed _ [.pass (later 5), .serve, .serve]
  finish := ended _ [.pass (later 5), .serve, .serve]
  firstTime := 1004000
  firstBatch := ["1000000-0"]
  opening := [.dispatched "1000000-0"]
  between := []
  secondTime := 1005000
  secondBatch := ["1000000-0"]
  reopening := [.dispatched "1000000-0"]
  closing := []
  reachable := reachable_left _
  toEarly := run_of_plays (by decide +kernel)
  toLate := run_of_plays (by decide +kernel)
  toFinish := run_of_plays (by decide +kernel)
  opening_rounds := rfl
  reopening_rounds := rfl
  closing_rounds := rfl
  finished := by decide +kernel
  repeated := "1000000-0"
  mem_firstBatch := by decide
  mem_secondBatch := by decide
  other := second
  other_mem := by decide +kernel
  other_idle := by decide +kernel
  other_stays := by decide +kernel

/-- The second entry does not have its turn, although it has been idle all along. -/
theorem idle_entry_starves :
    ¬ ∀ (c : ConsumerConfig) (partition : Int) (r : Recurrence c partition), 1 ≤ c.batch →
      .dispatched r.other.id.text ∈ r.history := by
  intro h
  have hturn := h (oneByOne 1000) 0 hasty (by decide)
  exact absurd hturn (by decide +kernel)

end Loop

end EventRelay
