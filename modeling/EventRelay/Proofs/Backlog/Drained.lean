import EventRelay.Proofs.Backlog.Phase
import EventRelay.Proofs.Reclaim.Play

/-!
# Whether the backlog is drained

Before a consumer turns to entries that are new, or that others left idle, it works on its own.  It
stops at the first batch of which every callback raises, and each batch begins with the first entry
that is still pending: where a whole batch of entries keeps raising, those behind it are not looked
at.  There is nothing behind exactly if what is left pending fits into one batch.

* `backlog_dispatched`: what is true when the consumer turns to other entries.
* `backlog_overlooked`: an entry that it has not looked at by then.
-/

namespace EventRelay

namespace Backlog

open Consumer

variable {c : ConsumerConfig} {partition : Int} {s s' : Loop} {batch : Nat}
  {initial own shown : List String} {log : List Event}

/-! ## The last batch -/

/-- Every entry was looked at, unless the last batch was full. -/
theorem Fruitless.dispatched_or_full (h : Fruitless batch initial log own [] shown)
    (haccount : Account initial log own) :
    (∀ entry ∈ initial, .dispatched entry ∈ log ∨ .gone entry ∈ log) ∨
      batch ≤ initial.countP fun entry => .raised entry ∈ log := by
  have hraised : ∀ x ∈ shown, .raised x ∈ log :=
    fun x hx => (h.raised x hx).resolve_right List.not_mem_nil
  by_cases hshort : shown.length < batch
  · refine .inl fun entry hentry => ?_
    rcases haccount.listed entry hentry with hdispatched | hgone | hown
    · exact .inl hdispatched
    · exact .inr hgone
    · exact .inl (haccount.tried entry (hraised entry (h.all hshort hown)))
  · refine .inr ?_
    calc batch
        ≤ shown.length := Nat.le_of_not_lt hshort
      _ = shown.countP fun entry => .raised entry ∈ log :=
          (List.countP_eq_length.mpr fun x hx => decide_eq_true (hraised x hx)).symm
      _ ≤ initial.countP fun entry => .raised entry ∈ log := h.sublist.countP_le

/-- Unless others took entries away, the consumer has looked at every entry exactly if those that
are left fit into one batch. -/
theorem Fruitless.dispatched_iff (h : Fruitless batch initial log own [] shown)
    (haccount : Account initial log own) (hahead : Ahead batch log own [])
    (hnodup : own.Nodup) (hnone : ∀ entry, .gone entry ∉ log) :
    (∀ entry ∈ initial, .dispatched entry ∈ log) ↔ own.length ≤ batch := by
  constructor
  · intro hall
    have hfront : own ⊆ own.take batch := fun x hx =>
      hahead x hx (.inl (hall x (haccount.sublist.subset hx)))
    have hle := (List.subperm_of_subset hnodup hfront).length_le
    rw [List.length_take] at hle
    omega
  · intro hfits entry hentry
    rcases haccount.listed entry hentry with hdispatched | hgone | hown
    · exact hdispatched
    · exact absurd hgone (hnone entry)
    · have hfront := h.front hnone
      rw [List.take_of_length_le hfits] at hfront
      exact haccount.tried entry ((h.raised entry (hfront hown)).resolve_right List.not_mem_nil)

/-! ## When the consumer turns to other entries -/

/-- When a consumer first asks for entries that are not its own, each of its entries whose callback
returned is acknowledged.  It has set to work on every one that nobody else took away if fewer
callbacks raised than a batch has room for; and if nobody took any away, exactly if those left
pending fit into one batch. -/
theorem backlog_dispatched (hbatch : 1 ≤ c.batch) (hnodup : (owned c partition s).Nodup)
    (hmove : s.move = Consumer.start) (hrun : Run c partition s log s')
    (hrequest : s'.move.request = .takeOver) :
    (∀ entry, .returned entry ∈ log →
      .acknowledged entry ∈ log ∧ entry ∉ owned c partition s') ∧
    (((owned c partition s).countP fun entry => .raised entry ∈ log : Int) < c.batch →
      ∀ entry ∈ owned c partition s, .dispatched entry ∈ log ∨ .gone entry ∈ log) ∧
    ((∀ entry, .gone entry ∉ log) →
      ((∀ entry ∈ owned c partition s, .dispatched entry ∈ log) ↔
        ((owned c partition s').length : Int) ≤ c.batch)) := by
  obtain ⟨haccount, hsettled, hphase⟩ := hrun.holds hnodup (holds_start hmove)
  rw [List.nil_append] at haccount hsettled hphase
  rw [hrequest] at hsettled hphase
  obtain ⟨hahead, shown, hshown⟩ := hphase.of_takeOver
  refine ⟨fun entry hentry => ?_, fun hfew => ?_, fun hnone => ?_⟩
  · have hacknowledged := hsettled.complete nofun entry hentry
    exact ⟨hacknowledged, haccount.cleared entry hacknowledged⟩
  · refine (hshown.dispatched_or_full haccount).resolve_right fun hfull => ?_
    omega
  · rw [hshown.dispatched_iff haccount hahead (hnodup.sublist haccount.sublist) hnone]
    omega

/-! ### An entry whose callback always raises -/

section

variable (c : ConsumerConfig) (partition : Int) (callback : String → Except Failure Unit)

/-- The consumer goes on, as far as it works on its backlog. -/
def play (s : Loop) : Loop × List Event :=
  match s.move.request with
  | .readOwn =>
    match s.streams.readOwn (c.stream partition) c.group c.name c.batch.toNat with
    | .ok entries =>
      (s.respond c partition (.batch entries), started (Loop.due s.move.state (.batch entries)))
    | .error _ => (s, [])
  | .acknowledge entry =>
    ({ s.respond c partition .done with
        streams := s.streams.acknowledge (c.stream partition) c.group entry },
      [.acknowledged entry] ++ started (Loop.due s.move.state .done))
  | .handle d =>
    match callback d.offset with
    | .ok _ => (s.respond c partition .done, [.returned d.offset])
    | .error e =>
      if e.isCancellation = false then
        (s.respond c partition (.failed e),
          [.raised d.offset] ++ started (Loop.due s.move.state (.failed e)))
      else (s, [])
  | _ => (s, [])

/-- The consumer goes on so many times. -/
def plays (s : Loop) : Nat → Loop × List Event
  | 0 => (s, [])
  | n + 1 =>
    let (s, events) := play c partition callback s
    let (s, log) := plays s n
    (s, events ++ log)

end

/-- What is carried out is a run. -/
theorem run_play (callback : String → Except Failure Unit) (s : Loop) :
    Run c partition s (play c partition callback s).2 (play c partition callback s).1 := by
  unfold play
  split
  · rename_i hrequest
    split
    · rename_i entries hread
      exact (Step.read s hrequest hread).run
    · exact .done s
  · rename_i entry hrequest
    exact (Step.acknowledge s hrequest).run
  · rename_i d hrequest
    split
    · exact (Step.returned s hrequest).run
    · split
      · rename_i e _ he
        exact (Step.raised s hrequest he).run
      · exact .done s
  · exact .done s

/-- So are several things, one after the other. -/
theorem run_plays (callback : String → Except Failure Unit) (s : Loop) (n : Nat) :
    Run c partition s (plays c partition callback s n).2 (plays c partition callback s n).1 := by
  induction n generalizing s with
  | zero => exact .done s
  | succ n ih => exact (run_play callback s).append (ih _)

/-- A consumer of user events with a batch of that size. -/
def worker (batch : Int) : ConsumerConfig :=
  ⟨"user-events", "tasks", "worker", 1, batch, 1000, 60000⟩

/-- It has read three entries before it starts again. -/
def restarted (batch : Int) : Loop :=
  ((⟨Instant.origin, [], Consumer.start⟩ : Loop).plays (worker batch) 0
    [.create, .append [("payload", "1")], .append [("payload", "2")], .append [("payload", "3")],
      .share "worker" 10]).1

/-- The callback raises for the first of them. -/
def picky (entry : String) : Except Failure Unit :=
  if entry = "1000000-0" then .error (.raised "ValueError" "poison") else .ok ()

/-- With room for two entries in a batch the consumer looks at all of them. -/
def drained : Loop × List Event := plays (worker 2) 0 picky (restarted 2) 10

/-- With room for one it stops at the first of them. -/
def stuck : Loop × List Event := plays (worker 1) 0 picky (restarted 1) 2

/-- The consumer comes to all of its entries before it turns to others. -/
theorem backlog_dispatched_of_drained :
    1 ≤ (worker 2).batch ∧ (owned (worker 2) 0 (restarted 2)).Nodup ∧
      (restarted 2).move = Consumer.start ∧ Run (worker 2) 0 (restarted 2) drained.2 drained.1 ∧
      drained.1.move.request = .takeOver ∧
      ∀ entry ∈ owned (worker 2) 0 (restarted 2), .dispatched entry ∈ drained.2 := by
  have hnodup : (owned (worker 2) 0 (restarted 2)).Nodup := by decide +kernel
  have hrun : Run (worker 2) 0 (restarted 2) drained.2 drained.1 := run_plays _ _ _
  have hrequest : drained.1.move.request = .takeOver := rfl
  obtain ⟨-, -, hexact⟩ := backlog_dispatched (by decide) hnodup rfl hrun hrequest
  have hlog : drained.2 =
      [.dispatched "1000000-0", .raised "1000000-0", .dispatched "1000000-1",
        .returned "1000000-1", .acknowledged "1000000-1", .dispatched "1000000-0",
        .raised "1000000-0", .dispatched "1000000-2", .returned "1000000-2",
        .acknowledged "1000000-2", .dispatched "1000000-0", .raised "1000000-0"] := by
    decide +kernel
  have hnone : ∀ entry, .gone entry ∉ drained.2 := by simp [hlog]
  exact ⟨by decide, hnodup, rfl, hrun, hrequest, (hexact hnone).mpr (by decide +kernel)⟩

/-- With room for one entry in a batch the consumer turns to other entries before it has looked at
all of its own. -/
theorem backlog_overlooked :
    ¬ ∀ (c : ConsumerConfig) (partition : Int) (s s' : Loop) (log : List Event),
      1 ≤ c.batch → (owned c partition s).Nodup → s.move = Consumer.start →
      Run c partition s log s' → s'.move.request = .takeOver → (∀ entry, .gone entry ∉ log) →
      (∀ entry ∈ owned c partition s, .dispatched entry ∈ log) ∧
        ∀ entry, .returned entry ∈ log → .acknowledged entry ∈ log := by
  intro h
  have hlog : stuck.2 = [.dispatched "1000000-0", .raised "1000000-0"] := by decide +kernel
  have hnone : ∀ entry, .gone entry ∉ stuck.2 := by simp [hlog]
  obtain ⟨hall, -⟩ := h (worker 1) 0 (restarted 1) stuck.1 stuck.2 (by decide)
    (by decide +kernel) rfl (run_plays _ _ _) rfl hnone
  have hsecond : .dispatched "1000000-1" ∈ stuck.2 := hall "1000000-1" (by decide +kernel)
  rw [hlog] at hsecond
  exact absurd hsecond (by decide)

end Backlog

end EventRelay
