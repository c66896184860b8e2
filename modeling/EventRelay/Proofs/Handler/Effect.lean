import EventRelay.Handler
import EventRelay.Proofs.Store.Isolation

/-!
# What the handling of a delivery does

One call of the handler among others, each with a connection of its own, when any operation of the
database may raise and any wait may be cancelled.

* `deletedUser?`: the user whose tasks a payload asks to remove, whenever it is read.
* `Staged`: how far a call has got; no wait destroys it.
* `meets_applyPayload`, `meets_conclude`: the two halves of a call.
* `meets_handle`: a call stores nothing, or it stores its effect and one row of the ledger at once.
-/

namespace EventRelay.Handler

open Work

/-- The user whose tasks a payload asks to remove, with what was read of it as an envelope. -/
def userIn? (legacy : Bool) (raw : String) : Checked UserEvent → Option Int
  | .ok e => if e.kind? = some .deleted then some e.userId else none
  | .error _ =>
    match legacy, Request.ofText raw.toList with
    | true, .deleteUser digits => some (DecimalDigit.number digits)
    | _, _ => none

/-- The user whose tasks a payload asks to remove, if it asks for that. -/
def deletedUser? (legacy : Bool) (raw : String) : Option Int :=
  userIn? legacy raw (UserEvent.ofWire (.ofInstant .origin) raw)

/-- A field that may be missing is read the same way whatever stands for a missing one, or it is
missing. -/
theorem read_absent {σ α : Type} (slot : Slot σ α) (members : List (String × σ)) (a b : α) :
    { slot with absent := some a }.read members = { slot with absent := some b }.read members ∨
      ({ slot with absent := some a }.read members = .ok a ∧
        { slot with absent := some b }.read members = .ok b) := by
  have hgiven (c : α) : Slot.given? { slot with absent := some c } members = slot.given? members :=
    rfl
  unfold Slot.read
  rw [hgiven, hgiven]
  rcases slot.given? members with _ | ⟨name, v⟩
  · exact .inr ⟨rfl, rfl⟩
  · exact .inl rfl

/-- When a payload is read, only the timestamp of the event may depend on the time. -/
theorem ofWire_anytime (now later : Timestamp) (raw : String) :
    (UserEvent.ofWire now raw).map (fun e => { e with timestamp := later }) =
      (UserEvent.ofWire later raw).map (fun e => { e with timestamp := later }) := by
  unfold UserEvent.ofWire
  rcases documentMembers raw with problems | members
  · rfl
  · unfold Reading.userEvent
    dsimp only
    rcases read_absent ⟨"timestamp", "timestamp", Reading.json.timestamp, none⟩ members now later
      with hsame | ⟨hnow, hlater⟩
    · rw [hsame]
    · rw [hnow, hlater]
      unfold Checked.apply
      rcases Slot.read ⟨"eventType", "event_type", Reading.json.text, none⟩ members with _ | _
      all_goals
        rcases Slot.read ⟨"userId", "user_id", Reading.json.integer, none⟩ members with _ | _
      all_goals
        rcases Slot.read ⟨"email", "email", Reading.json.optional, some none⟩ members with _ | _
      all_goals rfl

/-- The user does not depend on the time at which the payload is read. -/
theorem userIn?_ofWire (legacy : Bool) (now : Timestamp) (raw : String) :
    userIn? legacy raw (UserEvent.ofWire now raw) = deletedUser? legacy raw := by
  have h := ofWire_anytime now (.ofInstant .origin) raw
  unfold deletedUser?
  rcases hnow : UserEvent.ofWire now raw with _ | e
  · rcases horigin : UserEvent.ofWire (.ofInstant .origin) raw with _ | e'
    · rfl
    · rw [hnow, horigin] at h
      cases h
  · rcases horigin : UserEvent.ofWire (.ofInstant .origin) raw with _ | e'
    · rw [hnow, horigin] at h
      cases h
    · rw [hnow, horigin] at h
      obtain ⟨htype, -, huser, -⟩ := UserEvent.mk.inj (Except.ok.inj h)
      unfold userIn? UserEvent.kind?
      dsimp only
      rw [htype, huser]

/-! ## What a call has staged -/

/-- Tasks without some of this user: of no other, and without all that stay. -/
def Removes (stays : Task → Prop) (user : Option Int) (before after : List Task) : Prop :=
  ∃ removed : List Task, (∀ x ∈ removed, user = some x.userId) ∧
    (∀ x, stays x → user = some x.userId → x ∈ removed) ∧ after = before.filter (· ∉ removed)

/-- Nothing is removed where no user is named. -/
theorem removes_none (stays : Task → Prop) (tasks : List Task) : Removes stays none tasks tasks :=
  ⟨[], fun _ hx => absurd hx List.not_mem_nil, fun _ _ h => absurd h nofun,
    (List.filter_eq_self.mpr fun _ _ => decide_eq_true List.not_mem_nil).symm⟩

/-- Where nobody's tasks are to be removed, none are. -/
theorem eq_of_removes_none {stays : Task → Prop} {before after : List Task}
    (h : Removes stays none before after) : after = before := by
  obtain ⟨removed, honly, -, rfl⟩ := h
  refine List.filter_eq_self.mpr fun x _ => decide_eq_true fun hx => ?_
  exact absurd (honly x hx) nofun

/-- What a call has staged: no task but those of one user is gone, the ledger has some rows more,
and all else is as it is stored. -/
structure Staged (stays : Task → Prop) (user : Option Int) (added : List LedgerRow) (s : Session) :
    Prop where
  /-- Tasks that stay are there. -/
  present : ∀ x, stays x → x ∈ s.stored.tasks
  /-- The outbox is as it is stored. -/
  outbox : s.staged.outbox = s.stored.outbox
  /-- So are the users. -/
  users : s.staged.users = s.stored.users
  /-- Tasks of the user are gone. -/
  tasks : Removes stays user s.stored.tasks s.staged.tasks
  /-- The ledger has these rows more. -/
  ledger : s.staged.ledger = s.stored.ledger ++ added
  /-- Their keys are new. -/
  fresh : ∀ row ∈ added, ∀ q ∈ s.stored.ledger, q.eventKey ≠ row.eventKey

section

variable {stays : Task → Prop} {rules : Rules} {user : Option Int} {added : List LedgerRow}
  {found : Database} {s : Session}

/-- A call that has staged nothing. -/
theorem staged_of_eq (hpresent : ∀ x, stays x → x ∈ s.stored.tasks)
    (h : s.staged = s.stored) : Staged stays none [] s where
  present := hpresent
  outbox := by rw [h]
  users := by rw [h]
  tasks := by
    rw [h]
    exact removes_none stays _
  ledger := by rw [h, List.append_nil]
  fresh _ hrow := absurd hrow List.not_mem_nil

/-- As long as no row is staged, what is recorded is what is stored as recorded. -/
theorem Staged.isRecorded (h : Staged stays user [] s) (eventKey : String) :
    s.staged.isRecorded eventKey = s.stored.isRecorded eventKey := by
  unfold Database.isRecorded
  rw [h.ledger, List.append_nil]

/-- A row of a new key is staged. -/
theorem Staged.add {row : LedgerRow} (h : Staged stays user [] s)
    (hfresh : ∀ q ∈ s.stored.ledger, q.eventKey ≠ row.eventKey) :
    Staged stays user [row]
      { s with
        begun := true
        staged := { s.staged with ledger := s.staged.ledger ++ [row] } } where
  present := h.present
  outbox := h.outbox
  users := h.users
  tasks := h.tasks
  ledger := by rw [h.ledger, List.append_nil]
  fresh row' hrow' := by
    rw [List.mem_singleton.mp hrow']
    exact hfresh

/-- What a call has staged stays so while it waits. -/
theorem Staged.stable :
    Stable (isolated stays rules) (Staged stays user added) where
  played _ h := ⟨h.present, h.outbox, h.users, h.tasks, h.ledger, h.fresh⟩
  kept := by
    intro s t h ⟨hresumed, hpresent⟩
    have hfresh : ∀ row ∈ added, row ∉ s.stored.ledger :=
      fun row hrow hmem => h.fresh row hrow row hmem rfl
    have hstaged := hresumed.staged
    refine ⟨hpresent, ?_, ?_, ?_, ?_, ?_⟩
    · rw [hstaged]
      unfold Database.rebase
      rw [h.outbox, overlay_self]
    · rw [hstaged]
      unfold Database.rebase
      rw [h.users, overlay_self]
    · obtain ⟨removed, honly, hall, htasks⟩ := h.tasks
      refine ⟨removed.filter (· ∈ s.stored.tasks), fun x hx => honly x (List.mem_filter.mp hx).1,
        fun x hx huser => ?_, ?_⟩
      · exact List.mem_filter.mpr ⟨hall x hx huser, decide_eq_true (h.present x hx)⟩
      · rw [hstaged]
        unfold Database.rebase
        rw [htasks, overlay_filter]
    · rw [hstaged]
      unfold Database.rebase
      rw [h.ledger, overlay_append _ _ _ hfresh]
    · intro row hrow q hq
      by_cases hold : q ∈ s.stored.ledger
      · exact h.fresh row hrow q hold
      · intro hkey
        refine hresumed.apart q hq hold ?_
        rw [hkey]
        refine Session.mem_pendingKeys ?_ (hfresh row hrow)
        rw [h.ledger]
        exact List.mem_append_right _ hrow

/-- Nor does a wait give the connection back. -/
theorem Staged.stable_begun : Stable (isolated stays rules)
    (fun s => Staged stays user added s ∧ s.begun = true) where
  played script h := by
    have hstable : Stable (isolated stays rules) (Staged stays user added) := Staged.stable
    exact ⟨hstable.played script h.1, h.2⟩
  kept h hrely := ⟨Staged.stable.kept h.1 hrely, hrely.1.begun.trans h.2⟩

/-! ## The effect -/

/-- How the application of an effect ends: nothing is stored, and if it is done, it is staged. -/
def Applied (stays : Task → Prop) (rules : Rules) (user : Option Int)
    (found : Database) (r : Except Failure Unit) (t : Session) : Prop :=
  t.stored = found ∧ t.script.Within rules.allowed ∧ (r = .ok () → Staged stays user [] t)

variable (hs : Staged stays none [] s) (hscript : s.script.Within rules.allowed)
  (hfound : s.stored = found)

include hs hscript hfound

/-- A cascade stages that the tasks of the user are gone. -/
theorem meets_cascade (user : Int) :
    Meets (isolated stays rules) (Applied stays rules (some user))
      (cascade user) found s := by
  unfold cascade
  rw [meets_bind, meets_tell]
  simp only [passOn]
  rw [meets_bind]
  have htold : Staged stays none [] { s with notices := s.notices ++ [.cascading user] } :=
    ⟨hs.present, hs.outbox, hs.users, hs.tasks, hs.ledger, hs.fresh⟩
  refine meets_taskCascade Staged.stable htold hscript hfound ?_ ?_
  · intro t e begun ht htscript _
    refine ⟨rfl, htscript, fun hok => ?_⟩
    cases hok
  · intro t ht htscript
    simp only [passOn]
    unfold evict
    rw [meets_modify]
    refine ⟨rfl, htscript, fun _ => ⟨ht.present, ht.outbox, ht.users, ?_, ht.ledger, ht.fresh⟩⟩
    have htasks := eq_of_removes_none ht.tasks
    refine ⟨t.stored.tasks.filter (·.userId = user), fun x hx => ?_, fun x hx huser => ?_, ?_⟩
    · have := (List.mem_filter.mp hx).2
      simpa using (of_decide_eq_true this).symm
    · refine List.mem_filter.mpr ⟨ht.present x hx, decide_eq_true ?_⟩
      exact (Option.some.inj huser).symm
    · change t.staged.tasks.filter (·.userId ≠ user) = _
      rw [htasks]
      refine List.filter_congr fun x hx => ?_
      simp [List.mem_filter, hx]

/-- A step beside the tables is no effect on them. -/
theorem meets_aside {f : Session → Session} (hstored : (f s).stored = s.stored)
    (hstaged : (f s).staged = s.staged) (hsame : (f s).script = s.script) :
    Meets (isolated stays rules) (Applied stays rules none)
      (modify f : Work Unit) found s := by
  rw [meets_modify]
  refine ⟨hstored.trans hfound, hsame ▸ hscript, fun _ => ?_⟩
  obtain ⟨hpresent, houtbox, husers, htasks, hledger, -⟩ := hs
  refine ⟨hstored ▸ hpresent, ?_, ?_, ?_, ?_, fun row hrow => absurd hrow List.not_mem_nil⟩
  · rw [hstored, hstaged]
    exact houtbox
  · rw [hstored, hstaged]
    exact husers
  · rw [hstored, hstaged]
    exact htasks
  · rw [hstored, hstaged]
    exact hledger

/-- An envelope is applied by a cascade if it tells of a deletion. -/
theorem meets_applyEvent (e : UserEvent) :
    Meets (isolated stays rules)
      (Applied stays rules (if e.kind? = some .deleted then some e.userId else none))
      (applyEvent e) found s := by
  unfold applyEvent
  rcases hkind : e.kind? with _ | _ | _ | _
  · exact meets_aside hs hscript hfound rfl rfl rfl
  · exact meets_aside hs hscript hfound rfl rfl rfl
  · exact meets_aside hs hscript hfound rfl rfl rfl
  · exact meets_cascade hs hscript hfound e.userId

/-- A free text is applied by a cascade if it asks for one. -/
theorem meets_applyText (raw : String) :
    Meets (isolated stays rules)
      (Applied stays rules (match Request.ofText raw.toList with
        | .deleteUser digits => some (DecimalDigit.number digits)
        | _ => none))
      (applyText raw) found s := by
  unfold applyText
  rcases Request.ofText raw.toList with digits | _ | _ | _
  · dsimp only
    by_cases hlong : digitsLimit < digits.length
    · rw [if_pos hlong, meets_throw]
      exact ⟨hfound, hscript, nofun⟩
    · rw [if_neg hlong]
      exact meets_cascade hs hscript hfound _
  · exact meets_aside hs hscript hfound rfl rfl rfl
  · exact meets_aside hs hscript hfound rfl rfl rfl
  · exact meets_aside hs hscript hfound rfl rfl rfl

/-- The effect of a payload is staged, and it is the one that the payload asks for. -/
theorem meets_applyPayload (legacy : Bool) (raw : String) :
    Meets (isolated stays rules)
      (Applied stays rules (deletedUser? legacy raw)) (applyPayload legacy raw) found s := by
  unfold applyPayload
  rw [← userIn?_ofWire legacy (.ofInstant s.now) raw, meets_bind, meets_now]
  simp only [passOn]
  unfold userIn?
  rcases UserEvent.ofWire (.ofInstant s.now) raw with problems | e
  · dsimp only
    cases legacy with
    | true =>
      rw [if_pos rfl, meets_bind, meets_tell]
      simp only [passOn]
      have htold : Staged stays none [] { s with notices := s.notices ++ [.unstructured] } :=
        ⟨hs.present, hs.outbox, hs.users, hs.tasks, hs.ledger, hs.fresh⟩
      refine meets_mono (meets_applyText htold hscript hfound raw) fun found r t h => ?_
      rcases hreq : Request.ofText raw.toList with digits | _ | _ | _
      all_goals
        rw [hreq] at h
        exact h
    | false =>
      refine ⟨hfound, hscript, fun hok => ?_⟩
      cases hok
  · exact meets_applyEvent hs hscript hfound e

end

/-! ## The record -/

/-- Inserting a row of the ledger breaks a constraint only where its key is there. -/
def Faithful (rules : Rules) : Prop :=
  ∀ e, rules.allowed .ledgerAdd (.raise e) ∨ rules.allowed .commit (.raise e) →
    e.isConstraint = false

/-- Every operation is done or raises, and none breaks a constraint of its own accord. -/
def orderly : Rules where
  allowed _ turn := turn.IsHonest ∧ ∀ e, turn = .raise e → e.isConstraint = false
  through _ := ⟨nofun, nofun⟩
  honest _ _ h := h.1

/-- Where none breaks a constraint of its own accord the ledger can be relied upon. -/
theorem faithful_orderly : Faithful orderly := by
  intro e he
  rcases he with he | he
  · exact he.2 e rfl
  · exact he.2 e rfl

/-- What a call that handles a delivery commits: tasks of the user are removed, and the ledger has
one row more, the first one of the key. -/
structure Commits (stays : Task → Prop) (user : Option Int) (eventKey : String)
    (before after : Database) : Prop where
  /-- The outbox is the same. -/
  outbox : after.outbox = before.outbox
  /-- The users are the same. -/
  users : after.users = before.users
  /-- Tasks of the user are removed. -/
  tasks : Removes stays user before.tasks after.tasks
  /-- The ledger has one row more, with a key that it did not have. -/
  ledger : ∃ row, row.eventKey = eventKey ∧ after.ledger = before.ledger ++ [row] ∧
    ∀ q ∈ before.ledger, q.eventKey ≠ eventKey

/-- How a call ends: it has stored its effect with its record, or nothing.  A call that found the
delivery recorded is right, if the ledger can be relied upon. -/
def Concluded (stays : Task → Prop) (rules : Rules) (user : Option Int) (eventKey : String)
    (found : Database) (r : Except Failure HandleOutcome) (t : Session) : Prop :=
  match r with
  | .ok .processed => Commits stays user eventKey found t.stored
  | .ok .alreadyProcessed =>
    t.stored = found ∧ (Faithful rules → found.isRecorded eventKey = true)
  | .error _ => t.stored = found

section

variable {stays : Task → Prop} {rules : Rules} {user : Option Int} {found : Database} {s : Session}

/-- What a call does about an error while it records the delivery. -/
def giveUp (eventKey : String) (e : Failure) : Work HandleOutcome := do
  if e.isConstraint then
    rollback
    tell (.recordedConcurrently eventKey)
    return .alreadyProcessed
  else throw e

/-- A call that cannot record its delivery has stored nothing. -/
theorem meets_giveUp {eventKey : String} {e : Failure} (hfound : s.stored = found)
    (hrecorded : e.isConstraint = true → Faithful rules → found.isRecorded eventKey = true) :
    Meets (isolated stays rules) (Concluded stays rules user eventKey)
      (giveUp eventKey e) found s := by
  unfold giveUp
  by_cases he : e.isConstraint = true
  · rw [if_pos he]
    unfold rollback
    rw [meets_bind, meets_modify]
    simp only [passOn]
    rw [meets_bind, meets_tell]
    simp only [passOn, meets_pure]
    refine ⟨?_, hrecorded he⟩
    by_cases hbegun : s.begun = true
    · simp only [hbegun, if_true]
      exact hfound
    · simp only [hbegun]
      exact hfound
  · rw [if_neg he]
    exact hfound

/-- A raised error that breaks no constraint of its own accord leads to no wrong answer. -/
theorem recorded_of_raised {op : DbOp} {e : Failure} (hop : op = .ledgerAdd ∨ op = .commit)
    (he : rules.allowed op (.raise e) ∨ e.isCancellation = true ∨ e = .integerTooLarge)
    (hconstraint : e.isConstraint = true) (hfaithful : Faithful rules) : False := by
  rcases he with he | he | rfl
  · have hno := hfaithful e (by rcases hop with rfl | rfl <;> simp [he])
    rw [hconstraint] at hno
    cases hno
  · cases e <;> simp_all [Failure.isCancellation, Failure.isConstraint]
  · cases hconstraint

/-- A call that records its delivery has stored its effect with the record, or nothing. -/
theorem meets_conclude {eventKey : String} (hs : Staged stays user [] s)
    (hscript : s.script.Within rules.allowed) (hfound : s.stored = found) :
    Meets (isolated stays rules) (Concluded stays rules user eventKey)
      (conclude eventKey) found s := by
  have hunfold : conclude eventKey = tryCatch
      (do
        let now ← Work.now
        ledgerAdd eventKey now
        commit
        return .processed) (giveUp eventKey) := rfl
  rw [hunfold, meets_tryCatch, meets_bind, meets_now]
  simp only [passOn]
  rw [meets_bind]
  refine meets_ledgerAdd Staged.stable hs hscript hfound ?_ ?_ ?_
  · intro t e begun ht htscript he
    exact meets_giveUp rfl fun hconstraint hfaithful =>
      (recorded_of_raised (.inl rfl) he hconstraint hfaithful).elim
  · intro t ht htscript hrecorded
    exact meets_giveUp rfl fun _ _ => (ht.isRecorded eventKey).symm.trans hrecorded
  · intro t row ht htscript hnew hkey
    have hfresh : ∀ q ∈ t.stored.ledger, q.eventKey ≠ row.eventKey := by
      rw [ht.isRecorded] at hnew
      intro q hq
      rw [hkey]
      simpa using List.any_eq_false.mp hnew q hq
    simp only [passOn]
    rw [meets_bind]
    refine meets_commit (P := fun u => Staged stays user [row] u ∧ u.begun = true) ?_ ?_ ?_ ?_
      ?_ ?_
    · exact Staged.stable_begun
    · exact ⟨ht.add hfresh, rfl⟩
    · exact htscript
    · rfl
    · intro u e begun hu huscript he
      exact meets_giveUp rfl fun hconstraint hfaithful =>
        (recorded_of_raised (.inr rfl) he hconstraint hfaithful).elim
    · rintro u ⟨hu, hbegun⟩ huscript
      simp only [passOn, meets_pure, hbegun, if_true]
      refine ⟨hu.outbox, hu.users, hu.tasks, row, hkey, hu.ledger, fun q hq => ?_⟩
      rw [← hkey]
      exact hu.fresh row List.mem_cons_self q hq

/-- Handles a delivery among others: nothing is stored, or the effect that the payload asks for is
stored together with the record of the delivery. -/
theorem meets_handle (legacy : Bool) (d : Delivery)
    (hpresent : ∀ x, stays x → x ∈ s.stored.tasks) (hsettled : s.staged = s.stored)
    (hscript : s.script.Within rules.allowed) (hfound : s.stored = found) :
    Meets (isolated stays rules)
      (Concluded stays rules (deletedUser? legacy d.payload) d.eventKey) (handle legacy d)
      found s := by
  unfold handle
  rw [meets_bind]
  refine meets_ledgerExists Staged.stable (staged_of_eq hpresent hsettled) hscript hfound ?_ ?_
  · intro t e begun _ _ _
    exact rfl
  · intro t ht htscript
    simp only [passOn]
    by_cases hrecorded : t.staged.isRecorded d.eventKey = true
    · rw [if_pos hrecorded, meets_bind, meets_tell]
      simp only [passOn, meets_pure]
      exact ⟨rfl, fun _ => (ht.isRecorded d.eventKey).symm.trans hrecorded⟩
    · rw [if_neg hrecorded]
      unfold handleNew
      rw [meets_bind]
      have hbegun : Staged stays none [] { t with begun := true } :=
        ⟨ht.present, ht.outbox, ht.users, ht.tasks, ht.ledger, ht.fresh⟩
      refine meets_mono (meets_applyPayload hbegun htscript rfl legacy d.payload)
        fun found r u happlied => ?_
      obtain ⟨hstored, huscript, hstaged⟩ := happlied
      cases r with
      | error e => exact hstored
      | ok _ => exact meets_conclude (hstaged rfl) huscript hstored

end

end EventRelay.Handler
