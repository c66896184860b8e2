import EventRelay.Proofs.Reclaim.Run
import Mathlib.Data.List.Perm.Subperm

/-!
# Batches of idle entries

Every take-over begins with the first idle entry.  What it picks is not idle again before its time,
so the take-overs of that time pick entries that are all different; an idle entry that none of them
picks is behind them all.

* `Group.Still`: an entry that nobody is given; `Group.Since`: entries that were handed over.
* `Step.round`: what one take-over picks.
* `Spares`: nothing interrupts the consumer, and nobody is given the entry.
* `Run.batches_le`: while an idle entry is not picked, no more batches are taken over within the
  time of idleness than those ahead of it fill.
-/

namespace EventRelay

namespace Group

variable {g g' : Group} {id : EntryId} {idleSince start time : Nat}
  {ahead entries entries' handed : List String}

/-! ## Entries that nobody is given -/

/-- An entry was handed over, it is pending since a time if at all, and these are all that may be
pending ahead of it. -/
structure Still (id : EntryId) (since : Nat) (ahead : List String) (g : Group) : Prop where
  /-- It was handed over. -/
  handed : id.le g.last
  /-- It is pending since then, if it is. -/
  since : ∀ q ∈ g.pending, q.id = id → q.since = since
  /-- No others are ahead of it. -/
  ahead : ∀ q ∈ g.pending, q.id.lt id = true → q.id.text ∈ ahead

/-- An entry that is not handed over stays where it was, with no more ahead of it. -/
theorem Still.becomes (h : g.Still id idleSince ahead) (hbecomes : g.Becomes time handed g')
    (hkept : id.text ∉ handed) : g'.Still id idleSince ahead where
  handed := EntryId.le_trans h.handed hbecomes.last
  since q' hq' hid := by
    rcases hbecomes.pending q' hq' with hnew | ⟨q, hq, hsame, hsince⟩
    · rw [hid] at hnew
      exact absurd hnew (EntryId.not_lt_of_le h.handed)
    · rw [hid, if_neg hkept] at hsince
      rw [hsince, h.since q hq (hsame.trans hid)]
  ahead q' hq' hlt := by
    rcases hbecomes.pending q' hq' with hnew | ⟨q, hq, hsame, -⟩
    · have hle : q'.id.le g.last := EntryId.le_trans (EntryId.le_of_lt hlt) h.handed
      exact absurd hnew (EntryId.not_lt_of_le hle)
    · rw [← hsame] at hlt ⊢
      exact h.ahead q hq hlt

/-- A pending entry in order has those before it ahead. -/
theorem InOrder.still (h : g.InOrder) {q : Pending} (hq : q ∈ g.pending) :
    g.Still q.id q.since ((g.pending.filter (·.id.lt q.id)).map (·.id.text)) where
  handed := h.within q hq
  since r hr hid := by
    rw [EntryId.eq_of_ordered h.ordered hr hq hid]
  ahead r hr hlt := List.mem_map_of_mem (List.mem_filter.mpr ⟨hr, hlt⟩)

/-! ## Entries that were handed over -/

/-- Entries were handed over, at some time or later. -/
structure Since (time : Nat) (entries : List String) (g : Group) : Prop where
  /-- They were handed over. -/
  handed : ∀ entry ∈ entries, ∃ id : EntryId, id.text = entry ∧ id.le g.last
  /-- What is pending of them is pending since then, or less long. -/
  since : ∀ q ∈ g.pending, q.id.text ∈ entries → time ≤ q.since

/-- What was handed over since a time was so later. -/
theorem Since.becomes (h : g.Since start entries) (hbecomes : g.Becomes time handed g')
    (hlate : start ≤ time) : g'.Since start entries where
  handed entry hentry := by
    obtain ⟨id, htext, hle⟩ := h.handed entry hentry
    exact ⟨id, htext, EntryId.le_trans hle hbecomes.last⟩
  since q' hq' hentry := by
    rcases hbecomes.pending q' hq' with hnew | ⟨q, hq, hsame, hsince⟩
    · obtain ⟨id, htext, hle⟩ := h.handed _ hentry
      rw [← EntryId.text_injective htext] at hnew
      exact absurd hnew (EntryId.not_lt_of_le hle)
    · split at hsince
      · rw [hsince]
        exact hlate
      · rw [hsince]
        exact h.since q hq (hsame ▸ hentry)

/-- Two lots that were handed over are one. -/
theorem Since.append (h : g.Since start entries) (h' : g.Since start entries') :
    g.Since start (entries ++ entries') where
  handed entry hentry := (List.mem_append.mp hentry).elim (h.handed entry) (h'.handed entry)
  since q hq hentry := (List.mem_append.mp hentry).elim (h.since q hq) (h'.since q hq)

/-- What was handed over at a time or later was so since any earlier time. -/
theorem Since.mono (h : g.Since time entries) (hle : start ≤ time) : g.Since start entries where
  handed := h.handed
  since q hq hentry := Nat.le_trans hle (h.since q hq hentry)

/-- What a take-over picks is handed over then. -/
theorem Picks.since {least : Int} {count : Nat} (h : Picks least count time entries g g')
    (hbecomes : g.Becomes time entries g') (horder : g.InOrder) : g'.Since time entries where
  handed entry hentry := by
    obtain ⟨q, hq, htext, -⟩ := h.idle entry hentry
    exact ⟨q.id, htext, EntryId.le_trans (horder.within q hq) hbecomes.last⟩
  since q' hq' hentry := by
    rcases hbecomes.pending q' hq' with hnew | ⟨q, hq, hsame, hsince⟩
    · obtain ⟨q, hq, htext, -⟩ := h.idle _ hentry
      rw [← EntryId.text_injective htext] at hnew
      exact absurd hnew (EntryId.not_lt_of_le (horder.within q hq))
    · rw [if_pos hentry] at hsince
      exact Nat.le_of_eq hsince.symm

/-- An idle entry that goes on to be pending and is not picked is behind a full batch. -/
theorem Picks.full {least : Int} {count : Nat} (h : Picks least count time entries g g')
    (hstill : g.Still id idleSince ahead) (hidle : idleSince + least ≤ time)
    (hbecomes : g.Becomes time entries g') (hstays : id ∈ g'.pending.map (·.id))
    (hkept : id.text ∉ entries) : entries.length = count ∧ ∀ entry ∈ entries, entry ∈ ahead := by
  obtain ⟨q, hq, rfl⟩ := List.mem_map.mp (hbecomes.mem_pending hstill.handed hstays)
  rw [← hstill.since q hq rfl] at hidle
  rcases h.first q hq hidle hstays with hpicked | ⟨hlength, hbefore⟩
  · exact absurd hpicked hkept
  · refine ⟨hlength, fun entry hentry => ?_⟩
    obtain ⟨r, hr, rfl, hlt⟩ := hbefore entry hentry
    exact hstill.ahead r hr hlt

end Group

namespace Loop

open Consumer

variable {c : ConsumerConfig} {partition : Int} {s s' : Loop} {events log : List Event}
  {id : EntryId} {idleSince start first : Nat} {ahead done : List String} {later : List Nat}

/-! ## One take-over -/

/-- The entries that are pending. -/
def waiting (c : ConsumerConfig) (partition : Int) (s : Loop) : List EntryId :=
  (s.group c partition).pending.map (·.id)

/-- A step is no take-over of the consumer, or it is one at the time. -/
theorem Step.round (h : Step c partition s events s') (horderly : s.Orderly c partition) :
    (rounds events = [] ∧ taken events = []) ∨
      (rounds events = [s.time] ∧ handed events = taken events ∧
        (s.group c partition).Picks c.idleMs c.batch.toNat s.time (taken events)
          (s'.group c partition)) := by
  cases h with
  | pass h => exact .inl ⟨rfl, rfl⟩
  | serve h =>
    rw [rounds_append, rounds_begun, taken_append, taken_begun, handed_append, handed_begun]
    simp only [List.append_nil]
    cases h with
    | readOwn hrequest h => exact .inl ⟨rfl, rfl⟩
    | readNew hrequest h => exact .inl ⟨rfl, rfl⟩
    | takeOver hrequest h =>
      refine .inr ⟨rfl, rfl, ?_⟩
      rw [show taken [.took s.time _] = _ from List.append_nil _]
      exact Streams.Orderly.picks horderly h
    | acknowledge hrequest => exact .inl ⟨rfl, rfl⟩
    | rest hrequest => exact .inl ⟨rfl, rfl⟩
  | lose h e => exact .inl ⟨rfl, rfl⟩
  | fail hrequest e => exact .inl ⟨rfl, rfl⟩
  | called hrequest hr => exact .inl ⟨rounds_begun _ _, taken_begun _ _⟩
  | cancelled hrequest he => exact .inl ⟨rfl, rfl⟩
  | elsewhere h =>
    refine .inl ?_
    cases h <;> exact ⟨rfl, rfl⟩

/-! ## Take-overs one after the other -/

/-- Nothing interrupts the consumer, and nobody is given the entry. -/
structure Spares (id : EntryId) (log : List Event) : Prop where
  /-- Nothing interrupts it. -/
  quiet : .interrupted ∉ log
  /-- Nobody is given the entry. -/
  kept : id.text ∉ handed log

/-- Who is spared by the whole is spared by the parts. -/
theorem Spares.of_append (h : Spares id (events ++ log)) : Spares id events ∧ Spares id log := by
  obtain ⟨hquiet, hkept⟩ := h
  rw [List.mem_append, not_or] at hquiet
  rw [handed_append, List.mem_append, not_or] at hkept
  exact ⟨⟨hquiet.1, hkept.1⟩, hquiet.2, hkept.2⟩

/-- Since some time these entries were picked, all different and all ahead of one that was not. -/
structure Rotating (c : ConsumerConfig) (partition : Int) (id : EntryId) (idleSince start : Nat)
    (ahead done : List String) (s : Loop) : Prop where
  /-- The one was not. -/
  still : (s.group c partition).Still id idleSince ahead
  /-- These were, since then. -/
  since : (s.group c partition).Since start done
  /-- It is not earlier now. -/
  clock : start ≤ s.time
  /-- They are all different. -/
  nodup : done.Nodup
  /-- They are ahead. -/
  ahead : ∀ entry ∈ done, entry ∈ ahead

/-- How many of these times come before an entry that was handed over at the start is idle again. -/
def counted (c : ConsumerConfig) (start : Nat) (times : List Nat) : Nat :=
  times.countP fun time : Nat => (time : Int) < start + c.idleMs

/-- Times are counted one after another. -/
theorem counted_append (c : ConsumerConfig) (start : Nat) (times times' : List Nat) :
    counted c start (times ++ times') = counted c start times + counted c start times' :=
  List.countP_append

/-- The first take-over. -/
theorem Step.rotating (h : Step c partition s events s') (horderly : s.Orderly c partition)
    (hround : rounds events = [first]) (hspares : Spares id events)
    (hstill : (s.group c partition).Still id idleSince ahead)
    (hidle : idleSince + c.idleMs ≤ s.time) (hstays : id ∈ s'.waiting c partition) :
    Rotating c partition id idleSince first ahead (taken events) s' ∧
      (taken events).length = c.batch.toNat := by
  obtain ⟨-, htime, hbecomes⟩ := h.spec horderly
  rcases h.round horderly with ⟨hnone, -⟩ | ⟨hone, hhanded, hpicks⟩
  · rw [hnone] at hround
    cases hround
  · rw [hone] at hround
    cases hround
    have hhands := hbecomes hspares.quiet
    have hkept := hspares.kept
    rw [hhanded] at hhands hkept
    obtain ⟨hlength, hahead⟩ := hpicks.full hstill hidle hhands hstays hkept
    exact ⟨⟨hstill.becomes hhands hkept, hpicks.since hhands horderly.inOrder, htime, hpicks.nodup,
      hahead⟩, hlength⟩

/-- A step adds what it picks to what was picked ahead of the entry. -/
theorem Rotating.step (h : Rotating c partition id idleSince start ahead done s)
    (hstep : Step c partition s events s') (horderly : s.Orderly c partition)
    (hspares : Spares id events) (hidle : idleSince + c.idleMs ≤ start)
    (hstays : id ∈ s'.waiting c partition) :
    ∃ done', Rotating c partition id idleSince start ahead done' s' ∧
      done'.length = done.length + c.batch.toNat * counted c start (rounds events) := by
  obtain ⟨-, htime, hbecomes⟩ := hstep.spec horderly
  have hhands := hbecomes hspares.quiet
  have hkept := hspares.kept
  have hclock : start ≤ s'.time := Nat.le_trans h.clock htime
  have hsince := h.since.becomes hhands h.clock
  have hstill := h.still.becomes hhands hkept
  by_cases hcounted : counted c start (rounds events) = 0
  · exact ⟨done, ⟨hstill, hsince, hclock, h.nodup, h.ahead⟩, by rw [hcounted]; rfl⟩
  rcases hstep.round horderly with ⟨hnone, -⟩ | ⟨hone, hhanded, hpicks⟩
  · rw [hnone] at hcounted
    exact absurd rfl hcounted
  · have hearly : (s.time : Int) < start + c.idleMs := by
      by_contra hlate
      rw [hone] at hcounted
      exact hcounted (by simp [counted, hlate])
    have hlater : idleSince + c.idleMs ≤ s.time := by
      have := h.clock
      omega
    rw [hhanded] at hhands hkept
    obtain ⟨hlength, hahead⟩ := hpicks.full h.still hlater hhands hstays hkept
    have hpicked := (hpicks.since hhands horderly.inOrder).mono h.clock
    refine ⟨done ++ taken events, ⟨hstill, hsince.append hpicked, hclock, ?_, ?_⟩, ?_⟩
    · -- what was picked already is not idle again
      refine List.nodup_append.mpr ⟨h.nodup, hpicks.nodup, fun entry hentry entry' hentry' => ?_⟩
      rintro rfl
      obtain ⟨q, hq, htext, hagain⟩ := hpicks.idle entry hentry'
      have := h.since.since q hq (htext ▸ hentry)
      omega
    · intro entry hentry
      exact (List.mem_append.mp hentry).elim (h.ahead entry) (hahead entry)
    · rw [hone, List.length_append, hlength]
      simp [counted, hearly]

/-- What is pending after a run and not new was pending all along. -/
theorem Run.mem_waiting (h : Run c partition s log s') (horderly : s.Orderly c partition)
    (hquiet : .interrupted ∉ log) (hid : id.le (s.group c partition).last)
    (hstays : id ∈ s'.waiting c partition) : id ∈ s.waiting c partition := by
  induction h with
  | done s => exact hstays
  | step hstep _ ih =>
    obtain ⟨horderly', -, hbecomes⟩ := hstep.spec horderly
    have hfirst := hbecomes fun hmem => hquiet (List.mem_append_left _ hmem)
    refine hfirst.mem_pending hid (ih horderly' (fun hmem => ?_) ?_ hstays)
    · exact hquiet (List.mem_append_right _ hmem)
    · exact EntryId.le_trans hid hfirst.last

/-- A run that spares an entry leaves it where it was. -/
theorem Run.still (h : Run c partition s log s') (horderly : s.Orderly c partition)
    (hspares : Spares id log) (hstill : (s.group c partition).Still id idleSince ahead) :
    (s'.group c partition).Still id idleSince ahead := by
  induction h with
  | done s => exact hstill
  | step hstep _ ih =>
    obtain ⟨hfirst, hrest⟩ := hspares.of_append
    obtain ⟨horderly', -, hbecomes⟩ := hstep.spec horderly
    exact ih horderly' hrest (hstill.becomes (hbecomes hfirst.quiet) hfirst.kept)

/-- A run adds a batch for each of its rounds. -/
theorem Rotating.run (h : Rotating c partition id idleSince start ahead done s)
    (hrun : Run c partition s log s') (horderly : s.Orderly c partition)
    (hspares : Spares id log) (hidle : idleSince + c.idleMs ≤ start)
    (hstays : id ∈ s'.waiting c partition) :
    ∃ done', Rotating c partition id idleSince start ahead done' s' ∧
      done'.length = done.length + c.batch.toNat * counted c start (rounds log) := by
  induction hrun generalizing done with
  | done s => exact ⟨done, h, rfl⟩
  | step hstep hrest ih =>
    obtain ⟨hnow, hthen⟩ := hspares.of_append
    obtain ⟨horderly', -, hbecomes⟩ := hstep.spec horderly
    have hlast := EntryId.le_trans h.still.handed (hbecomes hnow.quiet).last
    have hstays' := hrest.mem_waiting horderly' hthen.quiet hlast hstays
    obtain ⟨middle, hmiddle, hlength⟩ := h.step hstep horderly hnow hidle hstays'
    obtain ⟨done', hdone, hlength'⟩ := ih hmiddle horderly' hthen hstays
    refine ⟨done', hdone, ?_⟩
    rw [hlength', hlength, rounds_append, counted_append, Nat.mul_add, Nat.add_assoc]

/-- While an idle entry is not picked, the batches taken over within the time of idleness are filled
with entries ahead of it. -/
theorem Run.batches_le (h : Run c partition s log s') (horderly : s.Orderly c partition)
    (hspares : Spares id log) (hstill : (s.group c partition).Still id idleSince ahead)
    (hidle : idleSince + c.idleMs ≤ s.time) (hstays : id ∈ s'.waiting c partition)
    (hrounds : rounds log = first :: later) :
    c.batch.toNat * (1 + counted c first later) ≤ ahead.length := by
  induction h with
  | done s => cases hrounds
  | step hstep hrest ih =>
    obtain ⟨hnow, hthen⟩ := hspares.of_append
    rw [rounds_append] at hrounds
    obtain ⟨horderly', htime, hbecomes⟩ := hstep.spec horderly
    have hstill' := hstill.becomes (hbecomes hnow.quiet) hnow.kept
    rcases hstep.round horderly with ⟨hnone, -⟩ | ⟨hone, -, -⟩
    · rw [hnone] at hrounds
      have hidle' := Int.le_trans hidle (Int.ofNat_le.mpr htime)
      exact ih horderly' hthen hstill' hidle' hstays hrounds
    · rw [hone, List.singleton_append, List.cons.injEq] at hrounds
      obtain ⟨rfl, rfl⟩ := hrounds
      have hstays' := hrest.mem_waiting horderly' hthen.quiet hstill'.handed hstays
      obtain ⟨hrotating, hlength⟩ := hstep.rotating horderly hone hnow hstill hidle hstays'
      obtain ⟨done, hdone, hlength'⟩ := hrotating.run hrest horderly' hthen hidle hstays
      calc c.batch.toNat * (1 + counted c _ _) = done.length := by
            rw [hlength', hlength, Nat.mul_add, Nat.mul_one]
        _ ≤ ahead.length := (List.subperm_of_subset hdone.nodup hdone.ahead).length_le

end Loop

end EventRelay
