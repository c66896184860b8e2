import EventRelay.Proofs.Payload.Nesting
import EventRelay.Proofs.Store.Claiming
import EventRelay.Service.Announce

/-!
# What becomes of an event that is announced

An event that is announced inside a unit of work is appended to the outbox as one waiting row, or
it is dropped with a notice.  Either way the unit of work goes on and can store what it staged.

* `announce_of_shallow`: so it is with every payload that is not nested too deep, whatever is in it.
* `announce_of_deep`: a payload that could be written but for its depth is not dropped: the failure
  goes through to the unit of work, which stages nothing more and tells nobody.
* `announces_unless_deep`: both.

The depth is the only fault that goes through: every other way in which a payload can fail to have
a written form is told apart from it by `Payload.unwritable_of_wire`.
-/

namespace EventRelay.Service

open Work

variable {eventType topic : String} {payload : Payload} {key : Option String}
variable {s s' : Session} {result : Option OutboxRow}

/-- A new row of the outbox: it waits for its first attempt. -/
structure IsFresh (row : OutboxRow) (t : Outbox) (now : Instant) : Prop where
  /-- Its identifier is above all others. -/
  id : ∀ q ∈ t, q.id < row.id
  /-- It waits. -/
  status : row.status = .pending
  /-- No attempt has failed. -/
  retryCount : row.retryCount = 0
  /-- There is no failure to tell of. -/
  errorMessage : row.errorMessage = none
  /-- It was never claimed. -/
  processedAt : row.processedAt = none
  /-- It was created now. -/
  createdAt : row.createdAt = now

/-- What an announcement comes to that does not fail. -/
inductive Announced (eventType topic : String) (payload : Payload) (key : Option String)
    (s : Session) : Option OutboxRow → Session → Prop where
  /-- One row is staged, with the written payload. -/
  | appended {row : OutboxRow} (hfresh : IsFresh row s.staged.outbox s.now)
      (hpayload : payload.wire = .ok row.payload) (htype : row.eventType = eventType)
      (htopic : row.topic = topic) (hkey : row.key = key) :
      Announced eventType topic payload key s (some row)
        { s with
          begun := true
          staged := { s.staged with outbox := s.staged.outbox ++ [row] } }
  /-- Nothing is staged, and the operators are told of the cause as of an error. -/
  | dropped {cause : Unwritable} (hcause : payload.wire = .error (.unwritable cause))
      (hlevel : (Notice.eventDropped eventType topic cause).level = .error) :
      Announced eventType topic payload key s none
        { s with notices := s.notices ++ [.eventDropped eventType topic cause] }

/-- What the unit of work has staged can be stored. -/
def CanCommit (s : Session) : Prop :=
  ∃ s', commit.follow s = (.ok (), s') ∧ (s.begun = true → s'.stored = s.staged)

/-- Where nothing is scripted a commit goes through. -/
theorem canCommit (hscript : s.script = .none) : CanCommit s := by
  refine ⟨_, follow_commit hscript, fun hbegun => ?_⟩
  rw [if_pos hbegun]

/-- An event that is announced is appended as a row or dropped, and the unit of work can still
commit. -/
def AppendsOrDrops (eventType topic : String) (payload : Payload) (key : Option String)
    (s : Session) : Prop :=
  ∃ result s', (announce eventType topic payload key).follow s = (.ok result, s') ∧
    Announced eventType topic payload key s result s' ∧ CanCommit s'

/-! ## The three ways -/

/-- A payload that can be written is appended as a row. -/
theorem announce_of_ok {raw : String} (hraw : payload.wire = .ok raw) :
    announce eventType topic payload key =
      Work.now >>= fun now => some <$> outboxAdd eventType topic (some raw) key now := by
  unfold announce
  rw [hraw]

/-- A payload that cannot be written is dropped with a notice. -/
theorem announce_of_unwritable {cause : Unwritable}
    (hcause : payload.wire = .error (.unwritable cause)) :
    announce eventType topic payload key =
      Work.tell (.eventDropped eventType topic cause) >>= fun _ => pure none := by
  unfold announce
  rw [hcause]
  rfl

/-- A payload that is nested too deep makes the call fail. -/
theorem announce_of_deep (hform : payload.HasForm) (hdeep : nestingLimit < payload.depth)
    (s : Session) :
    (announce eventType topic payload key).follow s = (.error .nestedTooDeep, s) := by
  unfold announce
  rw [Payload.wire_of_deep hform hdeep]
  rfl

/-- Where nothing is scripted an event is appended to the staged outbox. -/
theorem follow_outboxAdd (hscript : s.script = .none) (raw : String) (now : Instant) :
    (outboxAdd eventType topic raw key now).follow s =
      let row := (s.staged.outbox.append eventType topic raw key now).1
      (.ok row,
        { s with
          begun := true
          staged := { s.staged with outbox := s.staged.outbox ++ [row] } }) := by
  unfold outboxAdd
  rw [follow_attempt hscript]
  exact follow_stage _

/-- An appended row is a new one. -/
theorem isFresh_append (t : Outbox) (raw : String) (now : Instant) :
    IsFresh (t.append eventType topic raw key now).1 t now where
  id _ hq := lt_nextId (List.mem_map_of_mem hq)
  status := rfl
  retryCount := rfl
  errorMessage := rfl
  processedAt := rfl
  createdAt := rfl

/-! ## Announcements -/

/-- A payload that is not nested too deep is appended or dropped. -/
theorem announce_of_shallow (hscript : s.script = .none) (hdepth : payload.depth ≤ nestingLimit) :
    AppendsOrDrops eventType topic payload key s := by
  rcases hraw : payload.wire with e | raw
  · obtain ⟨cause, rfl⟩ := Payload.unwritable_of_wire hdepth hraw
    refine ⟨none, _, ?_, .dropped hraw rfl, canCommit hscript⟩
    rw [announce_of_unwritable hraw]
    rfl
  · refine ⟨_, _, ?_, .appended (isFresh_append _ raw s.now) hraw rfl rfl rfl, canCommit hscript⟩
    rw [announce_of_ok hraw, follow_bind, follow_now]
    refine (follow_bind _ _ s).trans ?_
    rw [follow_outboxAdd hscript]
    rfl

/-- A payload never makes an announcement fail but by its depth: otherwise one waiting row is staged
or the event is dropped with a notice, and the unit of work can still commit.  A payload that could
be written but for its depth makes it fail, with nothing staged and nobody told. -/
theorem announces_unless_deep (hscript : s.script = .none) :
    (payload.depth ≤ nestingLimit → AppendsOrDrops eventType topic payload key s) ∧
    (payload.HasForm → nestingLimit < payload.depth →
      (announce eventType topic payload key).follow s = (.error .nestedTooDeep, s)) :=
  ⟨announce_of_shallow hscript, fun hform hdeep => announce_of_deep hform hdeep s⟩

/-! ## Nested lists -/

/-- The number one, wrapped in lists. -/
def nestedOne (n : Nat) : Payload := .value (.nestInLists n (.int 1))

/-- The number one is as deep as the lists around it. -/
theorem depth_nestedOne (n : Nat) : (nestedOne n).depth = n :=
  Value.depth_nestInLists n (.int 1)

/-- It can be written but for its depth. -/
theorem hasForm_nestedOne (n : Nat) : (nestedOne n).HasForm :=
  Value.exists_write_nestInLists (l := .spaced) n (v := .int 1) (m := 0) (s := "1") (by decide)

/-- At the limit the event is announced; one list more, and the unit of work fails. -/
theorem announces_unless_deep_of_nestedOne : (sessionOn []).script = .none ∧
    AppendsOrDrops "user.created" "user-events" (nestedOne 980) none (sessionOn []) ∧
    (announce "user.created" "user-events" (nestedOne 981) none).follow (sessionOn []) =
      (.error .nestedTooDeep, sessionOn []) := by
  have hshallow : (nestedOne 980).depth ≤ nestingLimit := by
    rw [depth_nestedOne]
    decide
  have hdeep : nestingLimit < (nestedOne 981).depth := by
    rw [depth_nestedOne]
    decide
  exact ⟨rfl, (announces_unless_deep rfl).1 hshallow,
    (announces_unless_deep rfl).2 (hasForm_nestedOne 981) hdeep⟩

/-- Not every payload is announced or dropped: three thousand nested lists are neither. -/
theorem fails_of_nestedOne :
    ¬ ∀ (eventType topic : String) (payload : Payload) (key : Option String) (s : Session),
      s.script = .none → AppendsOrDrops eventType topic payload key s := by
  intro h
  have hdeep : nestingLimit < (nestedOne 3000).depth := by
    rw [depth_nestedOne]
    decide
  obtain ⟨result, s', hfollow, -⟩ :=
    h "user.created" "user-events" (nestedOne 3000) none (sessionOn []) rfl
  rw [announce_of_deep (hasForm_nestedOne 3000) hdeep] at hfollow
  cases hfollow

end EventRelay.Service
