import EventRelay.Proofs.Store.Interference
import EventRelay.Service.Tasks
import EventRelay.Service.Users

/-!
# What a service's unit of work does, operation by operation

A unit of work that nobody disturbs either fails, and then nothing is stored and no counter has
grown, or ends with a result.  `Yields` says so of any program, and what holds of the result; there
is one rule for each operation that the services of users and tasks call, and `yields_bind` puts
operations together.

Any operation may raise, and any may take time, so a rule leaves the script and the time open.
-/

namespace EventRelay.Work

variable {α β : Type} {o s t : Session}

/-- A session in which nothing has come yet of what a unit of work does since the session `o`: the
stored tables and the counters are as they were, and time may have passed. -/
structure Onward (o s : Session) : Prop where
  stored : s.stored = o.stored
  tally : s.tally = o.tally
  now : o.now ≤ s.now
  /-- No operation answers by itself. -/
  honest : s.script.IsHonest

/-- Where nothing has come of a unit of work up to a session, and nothing since then, nothing has
come of it at all. -/
theorem Onward.trans {u : Session} (h : Onward o s) (h' : Onward s u) : Onward o u :=
  ⟨h'.stored.trans h.stored, h'.tally.trans h.tally, Int.le_trans h.now h'.now, h'.honest⟩

/-- At its beginning nothing has come of a unit of work yet. -/
theorem Onward.refl (h : s.script.IsHonest) : Onward s s :=
  ⟨rfl, rfl, Int.le_refl _, h⟩

/-- The unit of work has tables of its own and has stored nothing. -/
structure Staged (o : Session) (d : Database) (s : Session) : Prop extends Onward o s where
  begun : s.begun = true
  staged : s.staged = d

/-- The unit of work has stored its tables. -/
structure Committed (o : Session) (d : Database) (s : Session) : Prop where
  stored : s.stored = d
  tally : s.tally = o.tally
  now : o.now ≤ s.now

/-- A program either fails, and nothing has come of it, or ends as told. -/
def Yields (o : Session) (w : Work α) (s : Session) (good : α → Session → Prop) : Prop :=
  match w.follow s with
  | (.ok a, t) => good a t
  | (.error _, t) => Onward o t

variable {w : Work α} {good : α → Session → Prop}

/-- What a program yields may be weakened. -/
theorem yields_mono {good' : α → Session → Prop} (h : Yields o w s good)
    (hgood : ∀ a t, good a t → good' a t) : Yields o w s good' := by
  unfold Yields at h ⊢
  rcases hw : w.follow s with ⟨_ | a, t⟩
  · rw [hw] at h
    exact h
  · rw [hw] at h
    exact hgood a t h

/-! ## Programs -/

/-- A program goes on with what its first part yields. -/
theorem yields_bind {k : α → Work β} {good' : β → Session → Prop} (h : Yields o w s good)
    (hk : ∀ a t, good a t → Yields o (k a) t good') : Yields o (w >>= k) s good' := by
  unfold Yields at h ⊢
  rw [follow_bind]
  rcases hw : w.follow s with ⟨_ | a, t⟩
  · rw [hw] at h
    exact h
  · rw [hw] at h
    exact hk a t h

/-- A program that does nothing yields the session. -/
theorem yields_pure {a : α} (h : good a s) : Yields o (pure a) s good := h

/-- A program that fails at once has left nothing behind. -/
theorem yields_throw {e : Failure} (h : Onward o s) : Yields o (throw e) s good := h

/-- A result may be changed afterwards. -/
theorem yields_map {f : α → β} {good' : β → Session → Prop} (h : Yields o w s good)
    (hf : ∀ a t, good a t → good' (f a) t) : Yields o (f <$> w) s good' :=
  yields_bind h hf

/-- A program goes on with the time of the session. -/
theorem yields_now_bind {k : Instant → Work α} (h : Yields o (k s.now) s good) :
    Yields o (now >>= k) s good := h

/-- A program goes on with the connection in use. -/
theorem yields_begin_bind {k : Unit → Work α} (h : Yields o (k ()) { s with begun := true } good) :
    Yields o (begin >>= k) s good := h

/-- A program goes on with the session. -/
theorem yields_get_bind {k : Session → Work α} (h : Yields o (k s) s good) :
    Yields o (get >>= k) s good := h

/-- What is told relative to the middle of a unit of work holds relative to its beginning. -/
theorem yields_since (h : Onward o s) (hw : Yields s w s good) : Yields o w s good := by
  unfold Yields at hw ⊢
  rcases hresult : w.follow s with ⟨_ | a, t⟩
  · rw [hresult] at hw
    exact h.trans hw
  · rw [hresult] at hw
    exact hw

/-- Time that passes leaves nothing behind. -/
theorem Onward.pass {now : Instant} {script : DbScript} (h : Onward o s) (hnow : s.now ≤ now)
    (hscript : script.IsHonest) :
    Onward o { s with now, script } :=
  ⟨h.stored, h.tally, Int.le_trans h.now hnow, hscript⟩

/-- The next outcome of an operation takes its time; then the operation is done or raises. -/
theorem yields_outcome {op : DbOp} (h : Onward o s) :
    Yields o (outcome op) s fun turn t =>
      Onward o t ∧ t.staged = s.staged ∧ t.begun = s.begun ∧ turn.IsHonest := by
  obtain ⟨hturn, hrest⟩ := Setting.alone.within_next
    (show s.script.Within Setting.alone.allowed from h.honest) op
  rcases hnext : Outcome.next (s.script op) with ⟨next, rest⟩
  rw [hnext] at hturn hrest
  have hfollow : (outcome op).follow s = (pause next.delay >>= fun _ => pure next.turn).follow
      { s with script := fun op' => if op' = op then rest else s.script op' } := by
    unfold outcome
    rw [follow_bind, follow_get]
    simp only [hnext]
    rw [follow_bind, follow_set]
  unfold Yields
  rw [hfollow, follow_bind]
  unfold pause
  by_cases hdelay : next.delay ≤ 0
  · rw [if_pos hdelay]
    exact ⟨h.pass (Int.le_refl _) hrest, rfl, rfl, hturn⟩
  · rw [if_neg hdelay]
    have hlater : s.now ≤ s.now + next.delay :=
      Int.le_add_of_nonneg_right (Int.le_of_not_le hdelay)
    exact ⟨h.pass hlater hrest, rfl, rfl, hturn⟩

/-- An operation that gives no answers by itself is done or raises. -/
theorem yields_attempt {op : DbOp} {real : Work α} (h : Onward o s)
    (hreal : ∀ t, Onward o t → t.staged = s.staged → Yields o real t good) :
    Yields o (attempt op real) s good := by
  unfold attempt
  refine yields_bind (yields_outcome h) fun turn t ⟨ht, hstaged, _, _⟩ => ?_
  cases turn with
  | raise e => exact ht
  | through => exact hreal t ht hstaged
  | answer n => exact hreal t ht hstaged

/-- An operation that could answer by itself does not. -/
theorem yields_perform {op : DbOp} {answer : Int → α} {real : Work α} (h : Onward o s)
    (hreal : ∀ t, Onward o t → t.staged = s.staged → t.begun = s.begun → Yields o real t good) :
    Yields o (perform op answer real) s good := by
  unfold perform
  refine yields_bind (yields_outcome h) fun turn t ⟨ht, hstaged, hbegun, hturn⟩ => ?_
  cases turn with
  | raise e => exact ht
  | through => exact hreal t ht hstaged hbegun
  | answer n => exact absurd rfl (hturn n)

/-! ## The database -/

/-- An integer is let through if its column can hold it. -/
theorem yields_word {n : Int} (h : Onward o s) :
    Yields o (word n) s fun _ t => Staged o s.staged t ∧ Scalar.fitsWord n = true := by
  have honward : Onward o { s with begun := true } := ⟨h.stored, h.tally, h.now, h.honest⟩
  unfold word
  refine yields_begin_bind ?_
  split
  · rename_i hfits
    exact ⟨⟨honward, rfl, rfl⟩, hfits⟩
  · exact honward

/-- The staged tables are read as they are. -/
theorem yields_inspect {f : Database → α} (h : Onward o s) :
    Yields o (inspect f) s fun a t => Staged o s.staged t ∧ a = f s.staged :=
  ⟨⟨⟨h.stored, h.tally, h.now, h.honest⟩, rfl, rfl⟩, rfl⟩

/-- The staged tables are changed. -/
theorem yields_stage {f : Database → α × Database} (h : Onward o s) :
    Yields o (stage f) s fun a t => Staged o (f s.staged).2 t ∧ a = (f s.staged).1 :=
  ⟨⟨⟨h.stored, h.tally, h.now, h.honest⟩, rfl, rfl⟩, rfl⟩

/-- The staged tables are changed, or nothing has come of it. -/
theorem yields_stageOrFail {f : Database → Except Failure (α × Database)} (h : Onward o s) :
    Yields o (stageOrFail f) s fun a t => ∃ d, Staged o d t ∧ f s.staged = .ok (a, d) := by
  unfold stageOrFail
  refine yields_begin_bind (yields_get_bind ?_)
  dsimp only
  rcases hf : f s.staged with e | ⟨a, d⟩
  · exact ⟨h.stored, h.tally, h.now, h.honest⟩
  · exact ⟨d, ⟨⟨h.stored, h.tally, h.now, h.honest⟩, rfl, rfl⟩, rfl⟩

/-- What is staged is stored, or nothing has come of it. -/
theorem yields_commit {d : Database} (h : Staged o d s) :
    Yields o commit s fun _ t => Committed o d t := by
  refine yields_perform h.toOnward fun t ht hstaged hbegun => ?_
  change Committed o d (if t.begun then { t with stored := t.staged, begun := false } else t)
  rw [if_pos (hbegun.trans h.begun), hstaged, h.staged]
  exact ⟨rfl, ht.tally, ht.now⟩

/-- An operation on a row whose identifier fits into its column. -/
theorem yields_attempt_word {op : DbOp} {n : Int} {real : Work α} (h : Onward o s)
    (hreal : ∀ t, Staged o s.staged t → Scalar.fitsWord n = true → Yields o real t good) :
    Yields o (attempt op (word n >>= fun _ => real)) s good := by
  refine yields_attempt h fun t ht hstaged => ?_
  refine yields_bind (yields_word ht) fun _ u ⟨hu, hfits⟩ => ?_
  rw [hstaged] at hu
  exact hreal u hu hfits

/-- A row is staged for the outbox. -/
theorem yields_outboxAdd {eventType topic payload : String} {key : Option String}
    {createdAt : Instant} (h : Onward o s) :
    Yields o (outboxAdd eventType topic payload key createdAt) s fun row t =>
      row = (s.staged.outbox.append eventType topic payload key createdAt).1 ∧
        Staged o { s.staged with outbox := s.staged.outbox ++ [row] } t := by
  refine yields_attempt h fun t ht hstaged => yields_mono (yields_stage ht) ?_
  rintro row u ⟨hu, rfl⟩
  rw [hstaged] at hu ⊢
  exact ⟨rfl, hu⟩

/-! ## Users -/

/-- A user is looked up by the address. -/
theorem yields_userByEmail {email : Option String} (h : Onward o s) :
    Yields o (userByEmail email) s fun found t =>
      Staged o s.staged t ∧ found = s.staged.userByEmail? email := by
  refine yields_attempt h fun t ht hstaged => ?_
  rw [← hstaged]
  exact yields_inspect ht

/-- A user is looked up by an identifier that the column can hold. -/
theorem yields_userGet {id : Int} (h : Onward o s) :
    Yields o (userGet id) s fun found t =>
      Staged o s.staged t ∧ found = s.staged.user? id ∧ Scalar.fitsWord id = true := by
  refine yields_attempt_word h fun t ht hfits => yields_mono (yields_inspect ht.toOnward) ?_
  rintro found u ⟨hu, rfl⟩
  rw [ht.staged] at hu ⊢
  exact ⟨hu, rfl, hfits⟩

/-- A user is added to the staged tables. -/
theorem yields_userAdd {email firstName lastName : Option String} {now : Instant}
    (h : Onward o s) :
    Yields o (userAdd email firstName lastName now) s fun u t =>
      ∃ d, Staged o d t ∧ s.staged.addUser email firstName lastName now = .ok (u, d) := by
  refine yields_attempt h fun t ht hstaged => ?_
  rw [← hstaged]
  exact yields_stageOrFail ht

/-- The names of a user are changed in the staged tables. -/
theorem yields_userUpdate {id : Int} {firstName lastName : Option String} {now : Instant}
    (h : Onward o s) :
    Yields o (userUpdate id firstName lastName now) s fun u t =>
      ∃ d, Staged o d t ∧ s.staged.updateUser id firstName lastName now = .ok (u, d) := by
  refine yields_attempt_word h fun t ht _ => ?_
  rw [← ht.staged]
  exact yields_stageOrFail ht.toOnward

/-- A user is removed from the staged tables. -/
theorem yields_userDelete {id : Int} (h : Onward o s) :
    Yields o (userDelete id) s fun _ t => Staged o (s.staged.deleteUser id) t := by
  refine yields_attempt_word h fun t ht _ => yields_mono (yields_stage ht.toOnward) ?_
  rintro _ u ⟨hu, -⟩
  rw [ht.staged] at hu
  exact hu

/-! ## Tasks -/

/-- A task is looked up by an identifier that the column can hold. -/
theorem yields_taskGet {id : Int} (h : Onward o s) :
    Yields o (taskGet id) s fun found t =>
      Staged o s.staged t ∧ found = s.staged.task? id ∧ Scalar.fitsWord id = true := by
  refine yields_attempt_word h fun t ht hfits => yields_mono (yields_inspect ht.toOnward) ?_
  rintro found u ⟨hu, rfl⟩
  rw [ht.staged] at hu ⊢
  exact ⟨hu, rfl, hfits⟩

/-- A task is added to the staged tables, for an owner that the column can hold. -/
theorem yields_taskAdd {userId : Int} {title description status : Option String} {now : Instant}
    (h : Onward o s) :
    Yields o (taskAdd userId title description status now) s fun x t =>
      Scalar.fitsWord userId = true ∧ ∃ d, Staged o d t ∧
        s.staged.addTask userId title description status now = .ok (x, d) := by
  refine yields_attempt_word h fun t ht hfits => yields_mono (yields_stageOrFail ht.toOnward) ?_
  rintro x u ⟨d, hd, hx⟩
  rw [ht.staged] at hx
  exact ⟨hfits, d, hd, hx⟩

/-- A task is changed in the staged tables. -/
theorem yields_taskUpdate {id : Int} {title description status : Option String} {now : Instant}
    (h : Onward o s) :
    Yields o (taskUpdate id title description status now) s fun x t =>
      ∃ d, Staged o d t ∧ s.staged.updateTask id title description status now = .ok (x, d) := by
  refine yields_attempt_word h fun t ht _ => ?_
  rw [← ht.staged]
  exact yields_stageOrFail ht.toOnward

/-- A task is removed from the staged tables. -/
theorem yields_taskDelete {id : Int} (h : Onward o s) :
    Yields o (taskDelete id) s fun _ t => Staged o (s.staged.deleteTask id) t := by
  refine yields_attempt_word h fun t ht _ => yields_mono (yields_stage ht.toOnward) ?_
  rintro _ u ⟨hu, -⟩
  rw [ht.staged] at hu
  exact hu

end EventRelay.Work
