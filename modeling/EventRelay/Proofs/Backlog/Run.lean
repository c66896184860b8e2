import EventRelay.Proofs.Reclaim.Run
import Mathlib.Data.List.Perm.Subperm

/-!
# The backlog of a consumer

A consumer that starts works on the entries that are pending for it already.  It reads a batch of
them from the first one on, and again from the first one on, as long as a batch moves it forward:
as long as at least one callback returns.  Others may change the streams at any time, and take away
entries of the consumer; no command of the broker fails for it, and it is not cancelled.

* `Step`, `Run`: the consumer goes on, or others change the streams; events tell of it.
* `Step.request_of_dispatched`: what it is to set to work on an entry.
* `readOwn_owned`, `owned_acknowledge`: what a batch shows, and what an acknowledgement settles.
-/

namespace EventRelay

namespace Backlog

open Consumer

/-- Something that happens to an entry of the consumer. -/
inductive Event where
  /-- The consumer sets to work on it. -/
  | dispatched (entry : String)
  /-- Its callback returns. -/
  | returned (entry : String)
  /-- Its callback raises. -/
  | raised (entry : String)
  /-- It is acknowledged. -/
  | acknowledged (entry : String)
  /-- Others take it over or settle it. -/
  | gone (entry : String)
deriving DecidableEq

/-- The consumer sets to work on the first entry of a batch. -/
def started (entries : List Handed) : List Event :=
  (entries.take 1).map fun x => .dispatched x.1

/-- The entries of the first list that are not in the second one are gone. -/
def losses (own own' : List String) : List Event :=
  (own.filter (· ∉ own')).map .gone

section

variable (c : ConsumerConfig) (partition : Int)

/-- The entries that are pending for the consumer. -/
def owned (s : Loop) : List String := ((s.group c partition).ownedBy c.name).map (·.id.text)

/-- One thing that happens while a consumer works on its backlog, and the events that tell of it.
No command of the broker fails, and the consumer is not cancelled. -/
inductive Step : Loop → List Event → Loop → Prop where
  /-- Time passes. -/
  | pass (s : Loop) (now : Instant) : Step s [] { s with now }
  /-- The consumer reads its own entries. -/
  | read (s : Loop) {entries : List Handed} (hrequest : s.move.request = .readOwn)
      (h : s.streams.readOwn (c.stream partition) c.group c.name c.batch.toNat = .ok entries) :
      Step s (started (Loop.due s.move.state (.batch entries)))
        (s.respond c partition (.batch entries))
  /-- A callback returns. -/
  | returned (s : Loop) {d : Delivery} (hrequest : s.move.request = .handle d) :
      Step s [.returned d.offset] (s.respond c partition .done)
  /-- A callback raises. -/
  | raised (s : Loop) {d : Delivery} (hrequest : s.move.request = .handle d) {e : Failure}
      (he : e.isCancellation = false) :
      Step s ([.raised d.offset] ++ started (Loop.due s.move.state (.failed e)))
        (s.respond c partition (.failed e))
  /-- An entry is acknowledged. -/
  | acknowledge (s : Loop) {entry : String} (hrequest : s.move.request = .acknowledge entry) :
      Step s ([.acknowledged entry] ++ started (Loop.due s.move.state .done))
        { s.respond c partition .done with
          streams := s.streams.acknowledge (c.stream partition) c.group entry }
  /-- Others change the streams.  Some of the consumer's entries may be gone then. -/
  | elsewhere (s : Loop) {streams : Streams}
      (h : (owned c partition { s with streams }).Sublist (owned c partition s)) :
      Step s (losses (owned c partition s) (owned c partition { s with streams }))
        { s with streams }

/-- What happens one after the other. -/
inductive Run : Loop → List Event → Loop → Prop where
  /-- Nothing. -/
  | done (s : Loop) : Run s [] s
  /-- One step, and then others. -/
  | step {s s' s'' : Loop} {events log : List Event} (h : Step c partition s events s')
      (hrest : Run s' log s'') : Run s (events ++ log) s''

end

variable {c : ConsumerConfig} {partition : Int} {s s' : Loop} {own own' : List String}
  {log events : List Event} {entry x : String}

/-! ## Events -/

/-- The entry that is set to work on is the first one of a batch. -/
@[simp] theorem mem_started {event : Event} {entries : List Handed} :
    event ∈ started entries ↔ ∃ y ∈ entries.take 1, .dispatched y.1 = event :=
  List.mem_map

/-- The entries that are gone are those that were there and are not any more. -/
@[simp] theorem mem_losses {event : Event} :
    event ∈ losses own own' ↔ ∃ x, (x ∈ own ∧ x ∉ own') ∧ .gone x = event := by
  unfold losses
  simp

/-- Where nothing is gone everything is as it was. -/
theorem eq_of_losses (hsub : own'.Sublist own) (hnodup : own.Nodup)
    (hnone : ∀ x, .gone x ∉ losses own own') : own' = own := by
  have hall : own ⊆ own' := fun x hx => by
    by_contra hnot
    exact hnone x (mem_losses.mpr ⟨x, ⟨hx, hnot⟩, rfl⟩)
  exact hsub.eq_of_length_le (List.subperm_of_subset hnodup hall).length_le

/-! ## The entries of the consumer -/

/-- A read shows the first entries that are pending. -/
theorem readOwn_owned {entries : List Handed}
    (h : s.streams.readOwn (c.stream partition) c.group c.name c.batch.toNat = .ok entries) :
    entries.map (·.1) = (owned c partition s).take c.batch.toNat := by
  unfold Streams.readOwn at h
  rcases hmember : s.streams.member (c.stream partition) c.group with e | ⟨stream, g⟩
  · simp [hmember] at h
  · obtain ⟨-, -, hg⟩ := Streams.groupOf_of_member hmember
    simp only [hmember, Except.ok.injEq] at h
    unfold owned Loop.group
    rw [hg, ← h, List.map_map, ← List.map_take]
    rfl

/-- An acknowledgement takes its entry away, and no other. -/
theorem owned_acknowledge (move : ConsumerMove) (entry : String) :
    owned c partition
        ⟨s.now, s.streams.acknowledge (c.stream partition) c.group entry, move⟩ =
      (owned c partition s).filter (· ≠ entry) := by
  unfold owned Loop.group
  dsimp only
  rw [Streams.groupOf_acknowledge, Group.ownedBy_acknowledge, List.filter_map]
  rfl

/-! ## Runs -/

/-- A run goes on with another one. -/
theorem Run.append {s'' : Loop} {log' : List Event} (h : Run c partition s log s')
    (h' : Run c partition s' log' s'') : Run c partition s (log ++ log') s'' := by
  induction h with
  | done s => exact h'
  | step hstep _ ih =>
    rw [List.append_assoc]
    exact .step hstep (ih h')

/-- A step is a run. -/
theorem Step.run (h : Step c partition s events s') : Run c partition s events s' := by
  have hrun := Run.step h (.done s')
  rwa [List.append_nil] at hrun

/-- To set to work on an entry is to give it to the callback, or to acknowledge it at once if there
is nothing to give. -/
theorem Step.request_of_dispatched (h : Step c partition s events s')
    (hdispatched : .dispatched entry ∈ events) :
    s'.move.request = .acknowledge entry ∨
      ∃ fields, s'.move.request = .handle (.ofFields c.topic partition entry fields) := by
  have hbegun {response : ConsumerResponse}
      (hmem : .dispatched entry ∈ started (Loop.due s.move.state response)) :
      Loop.Event.dispatched entry ∈ s.begun response := by
    obtain ⟨y, hy, heq⟩ := mem_started.mp hmem
    cases heq
    exact List.mem_map_of_mem hy
  cases h with
  | pass now => exact absurd hdispatched List.not_mem_nil
  | read hrequest h => exact Loop.request_of_begun (fun _ heq => by cases heq) (hbegun hdispatched)
  | returned hrequest => simp at hdispatched
  | raised hrequest he =>
    rcases List.mem_append.mp hdispatched with hnow | hrest
    · simp at hnow
    · refine Loop.request_of_begun (fun e' heq => ?_) (hbegun hrest)
      cases heq
      exact he
  | acknowledge hrequest =>
    rcases List.mem_append.mp hdispatched with hnow | hrest
    · simp at hnow
    · exact Loop.request_of_begun (fun _ heq => by cases heq) (hbegun hrest)
  | elsewhere hsub => simp at hdispatched

end Backlog

end EventRelay
