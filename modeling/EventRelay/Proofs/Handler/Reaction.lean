import EventRelay.Proofs.Handler.Effect

/-!
# What a payload asks for

The handler reads a payload as an envelope and, where that is allowed, as free text; either way it
comes down to one of five reactions, and the time at which the payload is read does not matter.  A
call with nobody else about then does one of four things.  The delivery was recorded before, or the
reaction is to refuse it, and nothing happens; or the tasks and the cache change as the reaction
says, and the delivery is recorded with that; or something is raised, and nothing is stored.

* `reaction`: the reaction to a payload; `ofReading_ofWire`: it is the same at all times.
* `does_applyPayload`, `recorded_conclude`: the two halves of a call.
* `handled_run`: a call of the handler; with nothing scripted, nothing is raised but by a refusal.
-/

namespace EventRelay.Handler

open Work

/-! ## Reactions -/

/-- What a payload asks for. -/
inductive Reaction where
  /-- To remove the tasks of a user, and to forget the user. -/
  | remove (user : Int)
  /-- To forget what is known of a user. -/
  | forget (user : Int)
  /-- To forget what is known of all users. -/
  | forgetAll
  /-- Nothing. -/
  | nothing
  /-- Something that cannot be done. -/
  | refuse
deriving DecidableEq, Repr

namespace Reaction

/-- The reaction to the deletion of a user: no column holds a larger number than a word. -/
def removal (user : Int) : Reaction := if Scalar.fitsWord user then .remove user else .refuse

/-- The reaction to an envelope. -/
def ofEvent (e : UserEvent) : Reaction :=
  match e.kind? with
  | some .deleted => removal e.userId
  | some .created => .forget e.userId
  | some .updated => .forget e.userId
  | none => .nothing

/-- The reaction to a free text. -/
def ofText (raw : String) : Reaction :=
  match Request.ofText raw.toList with
  | .deleteUser digits =>
    if digitsLimit < digits.length then .refuse else removal (DecimalDigit.number digits)
  | .deleteUnknown => .nothing
  | .forgetAll => .forgetAll
  | .nothing => .nothing

/-- The reaction to a payload, with what was read of it as an envelope. -/
def ofReading (legacy : Bool) (raw : String) : Checked UserEvent → Reaction
  | .ok e => ofEvent e
  | .error _ => if legacy then ofText raw else .refuse

/-- Whether a task stays. -/
def keeps (x : Reaction) (t : Task) : Bool :=
  match x with
  | remove user => t.userId ≠ user
  | _ => true

/-- Whether what is known of a user stays. -/
def remembers (x : Reaction) (user : Int) : Bool :=
  match x with
  | remove other => user ≠ other
  | forget other => user ≠ other
  | forgetAll => false
  | _ => true

/-- The tables after a reaction. -/
def onTables (x : Reaction) (d : Database) : Database := { d with tasks := d.tasks.filter x.keeps }

/-- The cache after a reaction. -/
def onCache (x : Reaction) (c : Cache) : Cache :=
  { c with entries := c.entries.filter fun p => x.remembers p.1 }

section effects

variable (d : Database) (c : Cache) (user : Int)

/-- A removal leaves the tables without the tasks of the user. -/
@[simp] theorem onTables_remove : (remove user).onTables d = (d.deleteTasksOf user).2 := rfl

/-- A reaction that keeps every task leaves the tables. -/
theorem onTables_of_keeps {x : Reaction} (h : ∀ t, x.keeps t = true) : x.onTables d = d := by
  unfold onTables
  rw [List.filter_eq_self.mpr fun t _ => h t]

/-- A reaction that forgets nobody leaves the cache. -/
theorem onCache_of_remembers {x : Reaction} (h : ∀ user, x.remembers user = true) :
    x.onCache c = c := by
  unfold onCache
  rw [List.filter_eq_self.mpr fun p _ => h p.1]

/-- To forget a user is nothing to the tables. -/
@[simp] theorem onTables_forget : (forget user).onTables d = d :=
  onTables_of_keeps d fun _ => rfl

/-- To forget everybody is nothing to the tables. -/
@[simp] theorem onTables_forgetAll : forgetAll.onTables d = d := onTables_of_keeps d fun _ => rfl

/-- Nothing is nothing to the tables. -/
@[simp] theorem onTables_nothing : nothing.onTables d = d := onTables_of_keeps d fun _ => rfl

/-- With the tasks of a user the user is forgotten. -/
@[simp] theorem onCache_remove : (remove user).onCache c = c.evict user := rfl

/-- A user is forgotten. -/
@[simp] theorem onCache_forget : (forget user).onCache c = c.evict user := rfl

/-- Everybody is forgotten. -/
@[simp] theorem onCache_forgetAll : forgetAll.onCache c = c.evictAll := by
  have hnone : c.entries.filter (fun p => forgetAll.remembers p.1) = [] :=
    List.filter_eq_nil_iff.mpr fun _ _ => Bool.false_ne_true
  unfold onCache Cache.evictAll
  rw [hnone]

/-- Nothing is nothing to the cache. -/
@[simp] theorem onCache_nothing : nothing.onCache c = c := onCache_of_remembers c fun _ => rfl

end effects

end Reaction

/-- The reaction to a payload. -/
def reaction (legacy : Bool) (raw : String) : Reaction :=
  .ofReading legacy raw (UserEvent.ofWire (.ofInstant .origin) raw)

/-- The reaction does not depend on the time at which the payload is read. -/
theorem ofReading_ofWire (legacy : Bool) (now : Timestamp) (raw : String) :
    Reaction.ofReading legacy raw (UserEvent.ofWire now raw) = reaction legacy raw := by
  have h := ofWire_anytime now (.ofInstant .origin) raw
  unfold reaction
  rcases hnow : UserEvent.ofWire now raw with _ | e
  · rcases horigin : UserEvent.ofWire (.ofInstant .origin) raw with _ | e'
    · rfl
    · rw [hnow, horigin] at h
      cases h
  · rcases horigin : UserEvent.ofWire (.ofInstant .origin) raw with _ | e'
    · rw [hnow, horigin] at h
      cases h
    · rw [hnow, horigin] at h
      obtain ⟨htype, -, huser, -⟩ := UserEvent.mk.inj (Except.ok.inj h)
      unfold Reaction.ofReading Reaction.ofEvent UserEvent.kind?
      dsimp only
      rw [htype, huser]

/-! ## A call of the handler -/

/-- What a part of a call comes to: the tables that it has staged and the cache are as a reaction
leaves them, or it has failed.  With nothing scripted it fails exactly where it refuses, and then
it leaves the cache as it was. -/
structure Does (x : Reaction) (s : Session) (r : Except Failure Unit) (t : Session) : Prop where
  /-- It is done, or it fails. -/
  result :
    (r = .ok () ∧ x ≠ .refuse ∧ t.staged = x.onTables s.staged ∧ t.cache = x.onCache s.cache) ∨
      ((∃ e, r = .error e) ∧ (s.script = .none → x = .refuse ∧ t.cache = s.cache))
  /-- Nothing is stored. -/
  stored : t.stored = s.stored
  /-- What is left of the script tells no lies. -/
  honest : t.script.IsHonest
  /-- Nothing is scripted where nothing was. -/
  quiet : s.script = .none → t.script = .none

section parts

variable {s : Session} (h : s.script.IsHonest)

include h

/-- A step beside the tables and the cache. -/
theorem does_nothing {f : Session → Session} (hstored : (f s).stored = s.stored)
    (hstaged : (f s).staged = s.staged) (hcache : (f s).cache = s.cache)
    (hscript : (f s).script = s.script) :
    Does .nothing s ((modify f : Work Unit).follow s).1 ((modify f : Work Unit).follow s).2 where
  result := by
    rw [Reaction.onTables_nothing, Reaction.onCache_nothing]
    exact .inl ⟨rfl, nofun, hstaged, hcache⟩
  stored := hstored
  honest := (congrArg DbScript.IsHonest hscript).mpr h
  quiet hnone := hscript.trans hnone

/-- An eviction forgets a user. -/
theorem does_evict (user : Int) :
    Does (.forget user) s ((evict user).follow s).1 ((evict user).follow s).2 where
  result := .inl ⟨rfl, nofun, (Reaction.onTables_forget s.staged user).symm,
    (Reaction.onCache_forget s.cache user).symm⟩
  stored := rfl
  honest := h
  quiet := id

/-- An eviction of everything forgets everybody. -/
theorem does_evictAll : Does .forgetAll s (evictAll.follow s).1 (evictAll.follow s).2 where
  result := .inl ⟨rfl, nofun, (Reaction.onTables_forgetAll s.staged).symm,
    (Reaction.onCache_forgetAll s.cache).symm⟩
  stored := rfl
  honest := h
  quiet := id

/-- A part that raises where it refuses. -/
theorem does_refuse {e : Failure} {t : Session} (hstored : t.stored = s.stored)
    (hcache : t.cache = s.cache) (hscript : t.script = s.script) : Does .refuse s (.error e) t where
  result := .inr ⟨⟨e, rfl⟩, fun _ => ⟨rfl, hcache⟩⟩
  stored := hstored
  honest := (congrArg DbScript.IsHonest hscript).mpr h
  quiet hnone := hscript.trans hnone

/-- A cascade removes the tasks of a user. -/
theorem does_cascade (user : Int) :
    Does (.removal user) s ((cascade user).follow s).1 ((cascade user).follow s).2 := by
  have htold : ({ s with notices := s.notices ++ [.cascading user] } : Session).script.IsHonest := h
  obtain ⟨t, hlater, hcascade⟩ := follow_taskCascade_of_honest htold user
  have hquiet : s.script = .none → t.script = .none := hlater.script
  unfold cascade Work.tell Reaction.removal
  rw [follow_bind, follow_modify]
  dsimp only
  rw [follow_bind]
  rcases hcascade with ⟨hfits, n, hdone⟩ | ⟨hfits, hdone⟩ | ⟨hscripted, e, hdone⟩
  · rw [hdone, if_pos hfits]
    refine ⟨.inl ⟨rfl, nofun, (Reaction.onTables_remove s.staged user).symm, ?_⟩, hlater.stored,
      hlater.honest, hquiet⟩
    rw [Reaction.onCache_remove, ← hlater.cache]
    rfl
  · rw [hdone, if_neg hfits]
    exact ⟨.inr ⟨⟨_, rfl⟩, fun _ => ⟨rfl, hlater.cache⟩⟩, hlater.stored, hlater.honest, hquiet⟩
  · rw [hdone]
    exact ⟨.inr ⟨⟨e, rfl⟩, fun hnone => absurd hnone hscripted⟩, hlater.stored, hlater.honest,
      hquiet⟩

/-- An envelope is applied as the reaction to it says. -/
theorem does_applyEvent (e : UserEvent) :
    Does (.ofEvent e) s ((applyEvent e).follow s).1 ((applyEvent e).follow s).2 := by
  unfold applyEvent Reaction.ofEvent
  rcases e.kind? with _ | _ | _ | _
  · exact does_nothing h rfl rfl rfl rfl
  · exact does_evict h e.userId
  · exact does_evict h e.userId
  · exact does_cascade h e.userId

/-- A free text is applied as the reaction to it says. -/
theorem does_applyText (raw : String) :
    Does (.ofText raw) s ((applyText raw).follow s).1 ((applyText raw).follow s).2 := by
  unfold applyText Reaction.ofText
  rcases Request.ofText raw.toList with digits | _ | _ | _
  · dsimp only
    by_cases hlong : digitsLimit < digits.length
    · rw [if_pos hlong, if_pos hlong, follow_throw]
      exact does_refuse h rfl rfl rfl
    · rw [if_neg hlong, if_neg hlong]
      exact does_cascade h _
  · exact does_nothing h rfl rfl rfl rfl
  · exact does_evictAll h
  · exact does_nothing h rfl rfl rfl rfl

/-- Applying a payload does what its reaction says. -/
theorem does_applyPayload (legacy : Bool) (raw : String) :
    Does (reaction legacy raw) s ((applyPayload legacy raw).follow s).1
      ((applyPayload legacy raw).follow s).2 := by
  unfold applyPayload
  rw [← ofReading_ofWire legacy (.ofInstant s.now) raw, follow_bind, follow_now]
  dsimp only
  rcases UserEvent.ofWire (.ofInstant s.now) raw with problems | e
  · dsimp only
    cases legacy with
    | true =>
      rw [if_pos rfl]
      unfold Work.tell
      rw [follow_bind, follow_modify]
      have htold := does_applyText (s := { s with notices := s.notices ++ [.unstructured] }) h raw
      exact ⟨htold.result, htold.stored, htold.honest, htold.quiet⟩
    | false => exact does_refuse h rfl rfl rfl
  · exact does_applyEvent h e

end parts

/-- What a call does about an error while it records the delivery stores nothing. -/
theorem follow_giveUp (s : Session) (eventKey : String) (e : Failure) :
    ∃ r t, (giveUp eventKey e).follow s = (r, t) ∧ r ≠ .ok .processed ∧ t.stored = s.stored := by
  unfold giveUp
  by_cases he : e.isConstraint = true
  · rw [if_pos he]
    unfold rollback Work.tell
    rw [follow_bind, follow_modify]
    dsimp only
    rw [follow_bind, follow_modify]
    refine ⟨_, _, rfl, nofun, ?_⟩
    show (if s.begun then settled s else s).stored = s.stored
    split <;> rfl
  · rw [if_neg he]
    exact ⟨_, _, rfl, nofun, rfl⟩

/-- How the record of a delivery ends: it is committed with what is staged, or nothing is stored. -/
inductive Recorded (eventKey : String) (s : Session) (r : Except Failure HandleOutcome)
    (t : Session) : Prop where
  /-- It is committed. -/
  | committed (hr : r = .ok .processed) (row : LedgerRow) (hkey : row.eventKey = eventKey)
      (hstored : t.stored = { s.staged with ledger := s.staged.ledger ++ [row] })
      (hcache : t.cache = s.cache) (hquiet : s.script = .none → t.script = .none)
  /-- Something was raised. -/
  | failed (hscript : s.script ≠ .none) (hr : r ≠ .ok .processed) (hstored : t.stored = s.stored)

/-- A delivery that is not recorded is recorded with what is staged, or nothing is stored. -/
theorem recorded_conclude {s : Session} (h : s.script.IsHonest) {eventKey : String}
    (hnew : s.staged.isRecorded eventKey = false) :
    Recorded eventKey s ((conclude eventKey).follow s).1 ((conclude eventKey).follow s).2 := by
  have hunfold : conclude eventKey = tryCatch
      (do
        let now ← Work.now
        ledgerAdd eventKey now
        commit
        return .processed) (giveUp eventKey) := rfl
  rw [hunfold, follow_tryCatch, follow_bind, follow_now]
  dsimp only
  rw [follow_bind]
  obtain ⟨t, row, hlater, hkey, hadded | ⟨hscripted, e, hraised⟩⟩ :=
    follow_ledgerAdd_of_honest h s.now hnew
  · rw [hadded]
    dsimp only
    obtain ⟨u, hcommit, hcommitted | ⟨hscripted, e, hraised⟩⟩ :=
      follow_commit_of_honest (s := { t with
        begun := true
        staged := { s.staged with ledger := s.staged.ledger ++ [row] } }) hlater.honest rfl
    · rw [follow_bind, hcommitted]
      exact .committed rfl row hkey rfl (hcommit.cache.trans hlater.cache)
        fun hnone => hcommit.script (hlater.script hnone)
    · obtain ⟨r, v, hgiven, hr, hstored⟩ := follow_giveUp u eventKey e
      rw [follow_bind, hraised]
      dsimp only
      rw [hgiven]
      exact .failed (fun hnone => hscripted (hlater.script hnone)) hr
        (hstored.trans (hcommit.stored.trans hlater.stored))
  · obtain ⟨r, v, hgiven, hr, hstored⟩ := follow_giveUp t eventKey e
    rw [hraised]
    dsimp only
    rw [hgiven]
    exact .failed hscripted hr (hstored.trans hlater.stored)

/-- What a call of the handler comes to. -/
inductive Handled (legacy : Bool) (d : Delivery) (s : Session) (r : Except Failure HandleOutcome)
    (t : Session) : Prop where
  /-- The delivery was recorded before. -/
  | known (hrecorded : s.stored.isRecorded d.eventKey = true) (hr : r = .ok .alreadyProcessed)
      (hstored : t.stored = s.stored) (hcache : t.cache = s.cache)
      (hquiet : s.script = .none → t.script = .none)
  /-- What its payload asks for cannot be done. -/
  | refused (hnew : s.stored.isRecorded d.eventKey = false)
      (hrefuse : reaction legacy d.payload = .refuse) (hr : ∃ e, r = .error e)
      (hstored : t.stored = s.stored) (hcache : t.cache = s.cache)
      (hquiet : s.script = .none → t.script = .none)
  /-- What its payload asks for is done, and the delivery is recorded with it. -/
  | done (hnew : s.stored.isRecorded d.eventKey = false)
      (hdone : reaction legacy d.payload ≠ .refuse) (hr : r = .ok .processed) (row : LedgerRow)
      (hkey : row.eventKey = d.eventKey)
      (hstored : t.stored =
        { (reaction legacy d.payload).onTables s.stored with
          ledger := s.stored.ledger ++ [row] })
      (hcache : t.cache = (reaction legacy d.payload).onCache s.cache)
      (hquiet : s.script = .none → t.script = .none)
  /-- Something was raised. -/
  | failed (hscript : s.script ≠ .none) (hr : r ≠ .ok .processed) (hstored : t.stored = s.stored)

/-- A call of the handler with nobody else about, whatever raises or takes its time in it. -/
theorem handled_run {s : Session} (h : s.script.IsHonest) (legacy : Bool) (d : Delivery) :
    Handled legacy d s ((handle legacy d).run s).1 ((handle legacy d).run s).2 := by
  have hsettled : (settled s).script.IsHonest := h
  obtain ⟨t, hlater, hasked⟩ := follow_ledgerExists_of_honest hsettled d.eventKey
  have hquiet : s.script = .none → t.script = .none := hlater.script
  unfold run handle
  rw [follow_bind]
  rcases hasked with hread | ⟨hscripted, e, hraised⟩
  case inr =>
    rw [hraised]
    exact .failed hscripted nofun hlater.stored
  have hexists : (ledgerExists d.eventKey).follow (settled s) =
      (.ok (s.stored.isRecorded d.eventKey), { t with begun := true }) := hread
  rw [hexists]
  dsimp only
  by_cases hrecorded : s.stored.isRecorded d.eventKey = true
  · rw [if_pos hrecorded]
    exact .known hrecorded rfl hlater.stored hlater.cache hquiet
  rw [if_neg hrecorded]
  rw [Bool.not_eq_true] at hrecorded
  unfold handleNew
  rw [follow_bind]
  have hdoes := does_applyPayload (s := { t with begun := true }) hlater.honest legacy d.payload
  rcases hfollow : (applyPayload legacy d.payload).follow { t with begun := true } with ⟨r, u⟩
  rw [hfollow] at hdoes
  obtain ⟨hresult, hstored, hhonest, hstill⟩ := hdoes
  rcases hresult with ⟨rfl, hdone, hstaged, hcache⟩ | ⟨⟨e, rfl⟩, hrefuse⟩
  · have hnew : u.staged.isRecorded d.eventKey = false := by
      rw [hstaged]
      show t.staged.isRecorded d.eventKey = false
      rw [hlater.staged]
      exact hrecorded
    have hconclude := recorded_conclude hhonest hnew
    dsimp only at hconclude ⊢
    rcases hfollow' : (conclude d.eventKey).follow u with ⟨r, v⟩
    rw [hfollow'] at hconclude
    cases hconclude with
    | committed hr row hkey hcommitted hkept hended =>
      refine .done hrecorded hdone hr row hkey ?_ ?_ fun hnone => hended (hstill (hquiet hnone))
      · refine hcommitted.trans ?_
        rw [hstaged]
        show { (reaction legacy d.payload).onTables t.staged with
          ledger := t.staged.ledger ++ [row] } = _
        rw [hlater.staged]
        rfl
      · refine hkept.trans (hcache.trans ?_)
        show (reaction legacy d.payload).onCache t.cache = _
        rw [hlater.cache]
        rfl
    | failed hscripted hr hfailed =>
      exact .failed (fun hnone => hscripted (hstill (hquiet hnone))) hr
        (hfailed.trans (hstored.trans hlater.stored))
  · by_cases hnone : s.script = .none
    · obtain ⟨hno, hkept⟩ := hrefuse (hquiet hnone)
      exact .refused hrecorded hno ⟨e, rfl⟩ (hstored.trans hlater.stored)
        (hkept.trans hlater.cache) fun _ => hstill (hquiet hnone)
    · exact .failed hnone nofun (hstored.trans hlater.stored)

end EventRelay.Handler
