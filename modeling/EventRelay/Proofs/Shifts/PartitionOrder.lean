import EventRelay.Proofs.Shifts.Effects

/-!
# Partitions are dealt with in order

A consumer that is alone in its group, whatever happens around it: the entries of a partition have
their turns in the order of the stream, also when it is stopped at any wait and started again.  With
the handler of user events as its callback, so have their effects, and each is committed once.

* `partition_order`: the property itself.
-/

namespace EventRelay

namespace Shifts

open Consumer Handler Work

variable {rules : Work.Rules} {m : Member} {stored : Database} {s : Shifts Handlers}
  {partition : Int} {id : EntryId}

/-- The key under which the effect of an entry is recorded. -/
def Member.key (m : Member) (partition : Int) (id : EntryId) : String :=
  (Delivery.ofFields m.topic partition id.text []).eventKey

/-- The effect of an entry was committed exactly once. -/
structure AppliedOnce (m : Member) (s : Shifts Handlers) (partition : Int) (id : EntryId) :
    Prop where
  /-- A call that handled the entry with its fields has processed it and stored the whole effect. -/
  applied : ∃ e ∈ s.world.ended, ∃ fields, .appended id fields ∈ s.history partition ∧
    e.delivery = .ofFields m.topic partition id.text fields ∧ e.result = .ok .processed ∧
      e.HasEffect
  /-- No other call has processed it. -/
  once : s.world.ended.countP (·.hasProcessed (m.key partition id)) = 1

/-- The key of an entry does not depend on its fields. -/
theorem eventKey_ofFields (m : Member) (partition : Int) (id : EntryId) (fields : Fields) :
    (Delivery.ofFields m.topic partition id.text fields).eventKey = m.key partition id := rfl

/-- What is acknowledged has its effect, unless it was removed before. -/
theorem appliedOnce_of_acknowledged (hcourse : InCourse m s) (h : Effective rules stored s)
    (hacked : .acknowledged id.text ∈ s.history partition)
    (hkept : .removed id.text ∉ s.history partition)
    (hnew : stored.isRecorded (m.key partition id) = false) : AppliedOnce m s partition id := by
  obtain ⟨d, hd, hoffset, hrecorded⟩ := (h.applied partition id.text hacked).resolve_left hkept
  obtain ⟨id₀, fields, -, rfl⟩ := hcourse.of_dispatched hd
  obtain rfl : id₀ = id := EntryId.text_injective hoffset
  rw [eventKey_ofFields] at hrecorded
  obtain ⟨row, hrow, hkey⟩ := List.any_eq_true.mp hrecorded
  have hkey : row.eventKey = m.key partition id₀ := of_decide_eq_true hkey
  -- the record is new, so a call has made it, and it was a call for this entry
  rcases h.traced row hrow with hold | ⟨e, he, hresult, hsame⟩
  · rw [Database.isRecorded, List.any_eq_false] at hnew
    exact absurd (decide_eq_true hkey) (hnew row hold)
  · have hkey' : e.delivery.eventKey = m.key partition id₀ := hsame.trans hkey
    obtain ⟨id₁, fields₁, hlisted, hdelivery⟩ := hcourse.of_dispatched (h.ended e he)
    obtain ⟨hpartition, hoffset'⟩ := Delivery.eq_of_eventKey (by rw [hdelivery]; rfl)
      (show e.delivery.eventKey = (Delivery.ofFields m.topic partition id₀.text []).eventKey
        from hkey')
    rw [hpartition] at hlisted hdelivery
    rw [hdelivery] at hoffset'
    obtain rfl : id₁ = id₀ := EntryId.text_injective hoffset'
    constructor
    case applied => exact ⟨e, he, fields₁, hlisted, hdelivery, hresult, h.sound.effect e he hresult⟩
    case once =>
      have hle := countP_hasProcessed h.sound (m.key partition id₁)
      have hpos := List.countP_pos_iff.mpr ⟨e, he, Ended.hasProcessed_iff.mpr ⟨hresult, hkey'⟩⟩
      exact Nat.le_antisymm hle hpos

/-- On every partition, whatever the callback does: what is dispatched is the next entry of the
stream, with every earlier one acknowledged; no entry is acknowledged twice and none is skipped, so
that each one is acknowledged or still to come; and an entry is dispatched again only where the
worker stopped before its acknowledgement.  With the handler of user events as the callback every
acknowledged entry that was not in the ledger from the beginning has had its effect exactly once,
and effects came in the order of the stream.  An entry that somebody removes from the stream is not
waited for. -/
theorem partition_order (m : Member) :
    (∀ {ε : Type} {cb : Callback ε} {world : ε} {s : Shifts ε}, Reachable m cb world s →
      ∀ partition, InTurn m.topic partition (s.history partition) ∧
        ∀ id fields, .appended id fields ∈ s.history partition →
          .acknowledged id.text ∈ s.history partition ∨
            .removed id.text ∈ s.history partition ∨ Awaited m s partition id) ∧
    (∀ {rules : Work.Rules} {stored : Database} {s : Shifts Handlers}, Faithful rules →
      Reachable m (handling rules) ⟨stored, [], [], 0⟩ s →
      (∀ partition (id : EntryId), .acknowledged id.text ∈ s.history partition →
        .removed id.text ∉ s.history partition → stored.isRecorded (m.key partition id) = false →
        AppliedOnce m s partition id) ∧
      (∀ e ∈ s.world.ended, e.result ≠ .ok .processed → e.LeavesAlone) ∧
      (∀ c ∈ s.world.running, c.LeavesAlone) ∧
      s.world.ended.Pairwise (Follows s.history)) := by
  constructor
  · intro ε cb world s hreach partition
    have hcourse := inCourse_of_reachable hreach
    exact ⟨inTurn_of_orderly (hcourse partition).orderly,
      fun id fields hid => settled_or_awaited hcourse hid⟩
  · intro rules stored s hfaithful hreach
    have h := effective_of_reachable hfaithful hreach
    exact ⟨fun partition id => appliedOnce_of_acknowledged (inCourse_of_reachable hreach) h,
      h.sound.noEffect, h.sound.idle, h.ordered⟩

/-! ## A run -/

/-- A worker of the user events, whose batches have two entries. -/
def reader (m : Member) : Worker :=
  .fresh ⟨m.topic, m.group, m.name, 1, 2, 1000, 60000⟩ 0 true ⟨1, ⟨0, 1⟩⟩ ⟨1, none⟩

/-- What happens next on the partition 0, if the worker is not stopped. -/
def tick (m : Member) (s : Shifts Handlers) : Shifts Handlers :=
  match s.worker 0 with
  | none => s.put 0 (some (reader m))
  | some w =>
    match w.move.request with
    | .readOwn =>
      match s.streams.readOwn w.stream w.config.group w.config.name w.config.batch.toNat with
      | .ok entries =>
        { (s.put 0 (some (w.respond (.batch entries)))).note 0 [] with streams := s.streams }
      | .error _ => s
    | .readNew =>
      match s.streams.readNew w.stream w.config.group w.config.name w.config.batch.toNat
        .origin with
      | .ok (entries, streams) =>
        { (s.put 0 (some (w.respond (.batch entries)))).note 0 [] with streams }
      | .error _ => s
    | .takeOver =>
      match s.streams.takeOver w.stream w.config.group w.config.name w.config.idleMs
        w.config.batch.toNat .origin with
      | .ok (entries, streams) =>
        { (s.put 0 (some (w.respond (.batch (entries.map fun (id, fields) =>
            (id, some fields)))))).note 0 [] with streams }
      | .error _ => s
    | .acknowledge entry =>
      { (s.put 0 (some (w.respond .done))).note 0 [.acknowledged entry] with
        streams := s.streams.acknowledge w.stream w.config.group entry }
    | .handle d =>
      match w.call with
      | none =>
        { (s.put 0 (some { w with call := some s.world.count })).note 0 [.dispatched d] with
          world := Handler.begin s.world true d (opened s.world.stored .none) }
      | some number =>
        if s.world.ended.any fun e => e.number = number && e.result.toBool then
          s.put 0 (some (w.respond .done))
        else if s.world.running.length = 1 then { s with world := Handler.goOn s.world } else s
    | _ => s

/-- A call that goes on is no new one. -/
theorem count_goOn (s : Handlers) : (Handler.goOn s).count = s.count := by
  unfold Handler.goOn
  rcases s.running.reverse with _ | ⟨c, rest⟩
  · rfl
  · dsimp only
    rcases hpart : (c.next (.ok ())).part (c.awake s.stored) with ⟨result | next, u⟩
    · rfl
    · rfl

/-- What happens next on the partition is a run. -/
theorem reachable_tick {start : Handlers} (h : Reachable m (handling rules) start s) :
    Reachable m (handling rules) start (tick m s) := by
  unfold tick
  split
  · rename_i hnone
    exact .step h (.join s hnone ⟨rfl, rfl, rfl, show (1 : Int) ≤ 2 by decide⟩ true _ _)
  · rename_i w hw
    split
    · rename_i hrequest
      split
      · rename_i entries hread
        exact .step h (.serve s hw (.readOwn hrequest hread))
      · exact h
    · rename_i hrequest
      split
      · rename_i entries streams hread
        exact .step h (.serve s hw (.readNew hrequest hread))
      · exact h
    · rename_i hrequest
      split
      · rename_i entries streams htake
        exact .step h (.serve s hw (.takeOver hrequest htake))
      · exact h
    · rename_i entry hrequest
      exact .step h (.serve s hw (.acknowledge hrequest))
    · rename_i d hrequest
      split
      · rename_i hcall
        exact .step h (.dispatch s hw hrequest hcall
          ⟨true, _, rfl, rfl, DbScript.within_none, rfl, rfl⟩)
      · rename_i number hcall
        split
        · rename_i hended
          obtain ⟨e, he, hreturned⟩ := List.any_eq_true.mp hended
          rw [Bool.and_eq_true] at hreturned
          refine .step h (.returned s hw hrequest hcall
            ⟨e, he, of_decide_eq_true hreturned.1, ?_⟩)
          rcases hresult : e.result with _ | outcome
          · rw [hresult] at hreturned
            cases hreturned.2
          · exact ⟨outcome, rfl⟩
        · split
          · rename_i hone
            obtain ⟨c, hc⟩ := List.length_eq_one_iff.mp hone
            refine .step h (.goOn s ⟨Handler.step_goOn (by simp [hc]) ?_, count_goOn _⟩)
            simp [hc, Handler.Unblocked]
          · exact h
    · exact h

/-- So many ticks. -/
def ticks (m : Member) : Nat → Shifts Handlers → Shifts Handlers
  | 0, s => s
  | n + 1, s => ticks m n (tick m s)

/-- So are many ticks. -/
theorem reachable_ticks {start : Handlers} (h : Reachable m (handling rules) start s) (n : Nat) :
    Reachable m (handling rules) start (ticks m n s) := by
  induction n generalizing s with
  | zero => exact h
  | succ n ih => exact ih (reachable_tick h)

/-- The consumer of user events. -/
def userEvents : Member := ⟨"user-events", "tasks", "reader"⟩

/-- An entry is appended on the partition 0. -/
def posted (m : Member) (s : Shifts Handlers) (fields : Fields) : Shifts Handlers :=
  { s.note 0 [.appended (s.streams.append (m.stream 0) .origin fields none false).1 fields] with
    streams := (s.streams.append (m.stream 0) .origin fields none false).2 }

/-- The worker of the partition 0 is stopped, if there is one. -/
def halted (s : Shifts Handlers) : Shifts Handlers :=
  match s.worker 0 with
  | some _ => (s.put 0 none).note 0 [.stopped]
  | none => s

/-- The stop of the worker is a run. -/
theorem reachable_halted {start : Handlers} (h : Reachable m (handling rules) start s) :
    Reachable m (handling rules) start (halted s) := by
  unfold halted
  split
  · rename_i w hw
    exact .step h (.leave s hw)
  · exact h

/-- The fields of an entry that tells of the deletion of a user. -/
def deletionOf (user : String) : Fields := [("payload", "user.deleted (" ++ user ++ ")")]

/-- The group is there, and two entries. -/
def filled : Shifts Handlers :=
  posted userEvents (posted userEvents
    ⟨⟨twoTasks, [], [], 0⟩, [⟨"user-events:0", [], .zero, [⟨"tasks", .zero, []⟩]⟩], fun _ => none,
      fun _ => []⟩ (deletionOf "7")) (deletionOf "8")

/-- The state with the two entries is one of a run. -/
theorem reachable_filled :
    Reachable userEvents (handling rules) ⟨twoTasks, [], [], 0⟩ filled := by
  have hstart : Reachable userEvents (handling rules) ⟨twoTasks, [], [], 0⟩
      ⟨⟨twoTasks, [], [], 0⟩, [], fun _ => none, fun _ => []⟩ := .start
  have hcreate : Streams.createGroup [] (userEvents.stream 0) userEvents.group =
      .ok [⟨"user-events:0", [], .zero, [⟨"tasks", .zero, []⟩]⟩] := rfl
  have hgroup := hstart.step (.createGroup _ hcreate)
  have hone := hgroup.step (.post _ 0 .origin (deletionOf "7") (by decide) none false)
  exact hone.step (.post _ 0 .origin (deletionOf "8") (by decide) none false)

/-- The first entry is handled, but the worker is stopped before it is acknowledged.  A new worker
reads both entries again and deals with them. -/
def restarted : Shifts Handlers := ticks userEvents 12 (halted (ticks userEvents 6 filled))

/-- The first entry is dispatched twice, before the second one each time, and applied once. -/
theorem partition_order_of_restarted :
    Faithful orderly ∧
      Reachable userEvents (handling orderly) ⟨twoTasks, [], [], 0⟩ restarted ∧
      restarted.history 0 =
        [.acknowledged "1000000-1",
          .dispatched (.ofFields "user-events" 0 "1000000-1" (deletionOf "8")),
          .acknowledged "1000000-0",
          .dispatched (.ofFields "user-events" 0 "1000000-0" (deletionOf "7")),
          .stopped,
          .dispatched (.ofFields "user-events" 0 "1000000-0" (deletionOf "7")),
          .appended ⟨1000000, 1⟩ (deletionOf "8"), .appended ⟨1000000, 0⟩ (deletionOf "7")] ∧
      InTurn "user-events" 0 (restarted.history 0) ∧
      twoTasks.isRecorded (userEvents.key 0 ⟨1000000, 0⟩) = false ∧
      AppliedOnce userEvents restarted 0 ⟨1000000, 0⟩ ∧
      restarted.world.stored.tasks = [] := by
  have hreach : Reachable userEvents (handling orderly) ⟨twoTasks, [], [], 0⟩ restarted :=
    reachable_ticks (reachable_halted (reachable_ticks reachable_filled 6)) 12
  have hnew : twoTasks.isRecorded (userEvents.key 0 ⟨1000000, 0⟩) = false := by decide +kernel
  obtain ⟨horder, heffects⟩ := partition_order userEvents
  refine ⟨faithful_orderly, hreach, by decide +kernel, (horder hreach 0).1, hnew, ?_,
    by decide +kernel⟩
  exact (heffects faithful_orderly hreach).1 0 ⟨1000000, 0⟩ (by decide +kernel) (by decide +kernel)
    hnew

end Shifts

end EventRelay
