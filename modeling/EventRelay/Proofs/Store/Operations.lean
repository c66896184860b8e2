import EventRelay.Proofs.Store.Interference

/-!
# What the operations of a unit of work do

One rule for each operation that a publisher or a handler calls.  Each rule starts from a condition
that no wait destroys, and has two premises: what must hold where the operation raises, and what
must hold where it is done.  An operation that raises has at most begun to use the connection.

Where nobody else is about, an operation can also be followed.  With nothing scripted it is just
done; with a script that tells no lies it is done some time `Later`, or it raises.
-/

namespace EventRelay.Work

variable {α : Type} {env : Setting} {found : Database} {s : Session} {P : Session → Prop}

/-- What must hold where an operation raises: the postcondition, of a session that is as before
but for the use of the connection. -/
def Raises (env : Setting) (P : Session → Prop) (op : DbOp)
    (Q : Database → Except Failure α → Session → Prop) : Prop :=
  ∀ t e begun, P t → t.script.Within env.allowed →
    (env.allowed op (.raise e) ∨ e.isCancellation = true ∨ e = .integerTooLarge) →
    Q t.stored (.error e) { t with begun }

/-- An operation raises as its script allows, or because it is cancelled. -/
theorem Raises.of_script {op : DbOp} {Q : Database → Except Failure α → Session → Prop}
    (h : Raises env P op Q) (t : Session) (e : Failure) (ht : P t)
    (hscript : t.script.Within env.allowed)
    (he : env.allowed op (.raise e) ∨ e.isCancellation = true) : Q t.stored (.error e) t :=
  h t e t.begun ht hscript (he.elim .inl fun he => .inr (.inl he))

/-- An integer is checked before the staged tables are changed. -/
theorem meets_word_stage {Q : Database → Except Failure α → Session → Prop} (n : Int)
    (f : Database → α × Database)
    (raised : Q found (.error .integerTooLarge) { s with begun := true })
    (staged : Q found (.ok (f s.staged).1) { s with begun := true, staged := (f s.staged).2 }) :
    Meets env Q (word n >>= fun _ => stage f) found s := by
  rw [meets_bind, meets_word]
  split
  · exact staged
  · exact raised

section

variable (hP : Stable env P) (hs : P s) (hscript : s.script.Within env.allowed)
  (hfound : s.stored = found)

include hP hs hscript hfound

/-- A commit raises, or makes what is staged the stored tables. -/
theorem meets_commit {Q : Database → Except Failure Unit → Session → Prop}
    (raised : Raises env P .commit Q)
    (committed : ∀ t, P t → t.script.Within env.allowed →
      Q t.stored (.ok ()) (if t.begun then { t with stored := t.staged, begun := false } else t)) :
    Meets env Q commit found s :=
  meets_perform hP hs hscript hfound .commit _ raised.of_script fun t ht htscript =>
    committed t ht htscript

/-! ## The outbox -/

/-- The watchdog raises, or takes the stale claims back. -/
theorem meets_outboxRelease {Q : Database → Except Failure Int → Session → Prop}
    {olderThan : Instant} {maxRetries : Int} (raised : Raises env P .outboxRelease Q)
    (released : ∀ t, P t → t.script.Within env.allowed →
      Q t.stored (.ok (t.staged.outbox.releaseStale olderThan maxRetries).1)
        { t with
          begun := true
          staged :=
            { t.staged with outbox := (t.staged.outbox.releaseStale olderThan maxRetries).2 } }) :
    Meets env Q (outboxRelease olderThan maxRetries) found s :=
  meets_perform hP hs hscript hfound .outboxRelease _ raised.of_script fun t ht htscript =>
    meets_word_stage _ _ (raised t _ _ ht htscript (.inr (.inr rfl))) (released t ht htscript)

/-- A claim raises, or takes a batch. -/
theorem meets_outboxClaim {Q : Database → Except Failure (List OutboxRow) → Session → Prop}
    {batch : Int} {now : Instant} (raised : Raises env P .outboxClaim Q)
    (claimed : ∀ t, P t → t.script.Within env.allowed →
      Q t.stored (.ok (t.staged.outbox.claim batch now).1)
        { t with
          begun := true
          staged := { t.staged with outbox := (t.staged.outbox.claim batch now).2 } }) :
    Meets env Q (outboxClaim batch now) found s :=
  meets_attempt hP hs hscript hfound .outboxClaim raised.of_script fun t ht htscript =>
    meets_word_stage _ _ (raised t _ _ ht htscript (.inr (.inr rfl))) (claimed t ht htscript)

/-- Recording that a row was accepted raises, or marks the row. -/
theorem meets_outboxPublish {Q : Database → Except Failure Bool → Session → Prop}
    {id : Int} {now : Instant} (raised : Raises env P .outboxPublish Q)
    (marked : ∀ t, P t → t.script.Within env.allowed →
      Q t.stored (.ok (t.staged.outbox.markPublished id now).1)
        { t with
          begun := true
          staged := { t.staged with outbox := (t.staged.outbox.markPublished id now).2 } }) :
    Meets env Q (outboxPublish id now) found s :=
  meets_attempt hP hs hscript hfound .outboxPublish raised.of_script fun t ht htscript =>
    meets_word_stage _ _ (raised t _ _ ht htscript (.inr (.inr rfl))) (marked t ht htscript)

/-- Recording that a send failed raises, or changes the row. -/
theorem meets_outboxFail {Q : Database → Except Failure Bool → Session → Prop}
    {id retryCount : Int} {cause : String} {status : OutboxStatus}
    (raised : Raises env P .outboxFail Q)
    (recorded : ∀ t, P t → t.script.Within env.allowed →
      Q t.stored (.ok (t.staged.outbox.recordFailure id retryCount cause status).1)
        { t with
          begun := true
          staged :=
            { t.staged with
              outbox := (t.staged.outbox.recordFailure id retryCount cause status).2 } }) :
    Meets env Q (outboxFail id retryCount cause status) found s := by
  refine meets_attempt hP hs hscript hfound .outboxFail raised.of_script fun t ht htscript => ?_
  rw [meets_bind, meets_word]
  split
  · exact meets_word_stage _ _ (raised t _ _ ht htscript (.inr (.inr rfl)))
      (recorded t ht htscript)
  · exact raised t _ _ ht htscript (.inr (.inr rfl))

/-- A cleanup raises, or removes the published rows of before. -/
theorem meets_outboxPurge {Q : Database → Except Failure Nat → Session → Prop}
    {cutoff : Instant} (raised : Raises env P .outboxPurge Q)
    (purged : ∀ t, P t → t.script.Within env.allowed →
      Q t.stored (.ok (t.staged.outbox.purge cutoff).1)
        { t with
          begun := true
          staged := { t.staged with outbox := (t.staged.outbox.purge cutoff).2 } }) :
    Meets env Q (outboxPurge cutoff) found s :=
  meets_attempt hP hs hscript hfound .outboxPurge raised.of_script fun t ht htscript =>
    purged t ht htscript

/-! ## The ledger and the tasks -/

/-- A look into the ledger raises, or tells whether the delivery was handled. -/
theorem meets_ledgerExists {Q : Database → Except Failure Bool → Session → Prop}
    {eventKey : String} (raised : Raises env P .ledgerExists Q)
    (asked : ∀ t, P t → t.script.Within env.allowed →
      Q t.stored (.ok (t.staged.isRecorded eventKey)) { t with begun := true }) :
    Meets env Q (ledgerExists eventKey) found s :=
  meets_perform hP hs hscript hfound .ledgerExists _ raised.of_script fun t ht htscript =>
    asked t ht htscript

/-- A row for the ledger is refused where the key is taken, and added otherwise. -/
theorem meets_ledgerAdd {Q : Database → Except Failure Unit → Session → Prop}
    {eventKey : String} {now : Instant} (raised : Raises env P .ledgerAdd Q)
    (taken : ∀ t, P t → t.script.Within env.allowed → t.staged.isRecorded eventKey = true →
      Q t.stored (.error .constraint) { t with begun := true })
    (added : ∀ t row, P t → t.script.Within env.allowed → t.staged.isRecorded eventKey = false →
      row.eventKey = eventKey → Q t.stored (.ok ())
        { t with begun := true, staged := { t.staged with ledger := t.staged.ledger ++ [row] } }) :
    Meets env Q (ledgerAdd eventKey now) found s := by
  refine meets_attempt hP hs hscript hfound .ledgerAdd raised.of_script fun t ht htscript => ?_
  rw [meets_stageOrFail]
  dsimp only
  by_cases hrecorded : t.staged.isRecorded eventKey = true
  · have hrecord : t.staged.record eventKey now = .error .constraint := if_pos hrecorded
    rw [hrecord]
    exact taken t ht htscript hrecorded
  · obtain ⟨row, hkey, hrecord⟩ : ∃ row : LedgerRow, row.eventKey = eventKey ∧
        t.staged.record eventKey now =
          .ok { t.staged with ledger := t.staged.ledger ++ [row] } := by
      unfold Database.record
      rw [if_neg hrecorded]
      exact ⟨_, rfl, rfl⟩
    rw [hrecord]
    exact added t row ht htscript (Bool.eq_false_iff.mpr hrecorded) hkey

/-- A cascade raises, or removes the tasks of the user. -/
theorem meets_taskCascade {Q : Database → Except Failure Int → Session → Prop} {user : Int}
    (raised : Raises env P .taskCascade Q)
    (removed : ∀ t, P t → t.script.Within env.allowed →
      Q t.stored (.ok (t.staged.deleteTasksOf user).1)
        { t with begun := true, staged := (t.staged.deleteTasksOf user).2 }) :
    Meets env Q (taskCascade user) found s :=
  meets_perform hP hs hscript hfound .taskCascade _ raised.of_script fun t ht htscript =>
    meets_word_stage _ _ (raised t _ _ ht htscript (.inr (.inr rfl))) (removed t ht htscript)

end

/-! ## With nothing scripted -/

section unscripted

variable (h : s.script = .none)

include h

/-- Where nothing is scripted an operation goes through. -/
theorem follow_outcome (op : DbOp) : (outcome op).follow s = (.ok .through, s) := by
  have hsame : (fun op' => if op' = op then [] else s.script op') = s.script := by
    funext op'
    rw [h]
    split <;> rfl
  have hnext : Outcome.next (s.script op) = (.plain, []) := by
    rw [h]
    rfl
  unfold outcome
  rw [follow_bind, follow_get]
  simp only [hnext, hsame]
  rfl

/-- Where nothing is scripted an operation is really done. -/
theorem follow_perform (op : DbOp) (answer : Int → α) (real : Work α) :
    (perform op answer real).follow s = real.follow s := by
  unfold perform
  rw [follow_bind, follow_outcome h]

/-- The same of an operation that gives no answers by itself. -/
theorem follow_attempt (op : DbOp) (real : Work α) :
    (attempt op real).follow s = real.follow s := by
  unfold attempt
  rw [follow_bind, follow_outcome h]

/-- Where nothing is scripted a commit makes what is staged the stored tables. -/
theorem follow_commit : commit.follow s =
    (.ok (), if s.begun then { s with stored := s.staged, begun := false } else s) := by
  unfold commit
  rw [follow_perform h, follow_modify]

end unscripted

/-! ## With a script that tells no lies -/

/-- A session some time later, in which some of the script has been played. -/
structure Later (s t : Session) : Prop where
  /-- It is the same but for its time and its script. -/
  resembles : Resembles s t
  /-- The script tells no lies. -/
  honest : t.script.IsHonest
  /-- No time passes where nothing is scripted. -/
  quiet : s.script = .none → t = s

/-- What is stored is the same later. -/
theorem Later.stored {t : Session} (h : Later s t) : t.stored = s.stored := by
  obtain ⟨now, script, rfl⟩ := h.resembles
  rfl

/-- What is staged is the same later. -/
theorem Later.staged {t : Session} (h : Later s t) : t.staged = s.staged := by
  obtain ⟨now, script, rfl⟩ := h.resembles
  rfl

/-- The cache is the same later. -/
theorem Later.cache {t : Session} (h : Later s t) : t.cache = s.cache := by
  obtain ⟨now, script, rfl⟩ := h.resembles
  rfl

/-- Whether the connection is in use is the same later. -/
theorem Later.begun {t : Session} (h : Later s t) : t.begun = s.begun := by
  obtain ⟨now, script, rfl⟩ := h.resembles
  rfl

/-- Where nothing is scripted nothing is scripted later. -/
theorem Later.script {t : Session} (h : Later s t) (hnone : s.script = .none) :
    t.script = .none := by
  rw [h.quiet hnone]
  exact hnone

/-- A pause moves the clock only, and not at all if it is for no time. -/
theorem follow_pause (span : Span) :
    ∃ now, (pause span).follow s = (.ok (), { s with now }) ∧ (span ≤ 0 → now = s.now) := by
  unfold pause
  by_cases hnone : span ≤ 0
  · rw [if_pos hnone]
    exact ⟨s.now, rfl, fun _ => rfl⟩
  · rw [if_neg hnone]
    exact ⟨s.now + span, rfl, fun h => absurd h hnone⟩

section honest

variable (h : s.script.IsHonest)

include h

/-- The next outcome of an operation is one that tells no lies, some time later. -/
theorem follow_outcome_of_honest (op : DbOp) :
    ∃ turn t, (outcome op).follow s = (.ok turn, t) ∧ Later s t ∧ turn.IsHonest ∧
      (s.script = .none → turn = .through) := by
  obtain ⟨hturn, hrest⟩ := Setting.alone.within_next h op
  obtain ⟨script, hplayed⟩ : ∃ script : DbScript, script = fun op' =>
    if op' = op then (Outcome.next (s.script op)).2 else s.script op' := ⟨_, rfl⟩
  rw [← hplayed] at hrest
  obtain ⟨now, hpause, hnow⟩ := follow_pause (s := { s with script })
    (Outcome.next (s.script op)).1.delay
  refine ⟨(Outcome.next (s.script op)).1.turn, { s with now, script }, ?_,
    ⟨⟨now, script, rfl⟩, hrest, fun hnone => ?_⟩, hturn, fun hnone => ?_⟩
  · unfold outcome
    rw [follow_bind, follow_get]
    dsimp only
    rw [follow_bind, follow_set, ← hplayed]
    dsimp only
    rw [follow_bind, hpause]
    rfl
  · have hsame : script = s.script := by
      rw [hplayed]
      funext op'
      rw [hnone]
      split <;> rfl
    have hinstant : now = s.now := by
      refine hnow ?_
      rw [hnone]
      exact Int.le_refl 0
    rw [hinstant, hsame]
  · rw [hnone]
    rfl

/-- An operation is really done, some time later, or raises. -/
theorem follow_perform_of_honest (op : DbOp) (answer : Int → α) (real : Work α) :
    ∃ t, Later s t ∧ ((perform op answer real).follow s = real.follow t ∨
      s.script ≠ .none ∧ ∃ e, (perform op answer real).follow s = (.error e, t)) := by
  obtain ⟨turn, t, hturn, hlater, hhonest, hquiet⟩ := follow_outcome_of_honest h op
  refine ⟨t, hlater, ?_⟩
  unfold perform
  rw [follow_bind, hturn]
  cases turn with
  | through => exact .inl rfl
  | raise e => exact .inr ⟨fun hnone => (nomatch hquiet hnone), e, rfl⟩
  | answer n => exact absurd rfl (hhonest n)

/-- The same of an operation that gives no answers by itself. -/
theorem follow_attempt_of_honest (op : DbOp) (real : Work α) :
    ∃ t, Later s t ∧ ((attempt op real).follow s = real.follow t ∨
      s.script ≠ .none ∧ ∃ e, (attempt op real).follow s = (.error e, t)) := by
  obtain ⟨turn, t, hturn, hlater, -, hquiet⟩ := follow_outcome_of_honest h op
  refine ⟨t, hlater, ?_⟩
  unfold attempt
  rw [follow_bind, hturn]
  cases turn with
  | through => exact .inl rfl
  | raise e => exact .inr ⟨fun hnone => (nomatch hquiet hnone), e, rfl⟩
  | answer n => exact .inl rfl

end honest

/-! ## Single steps -/

/-- The time is that of the session. -/
theorem follow_now : now.follow s = (.ok s.now, s) := rfl

/-- A program that ends with a result at once leaves the session. -/
theorem follow_ofExcept (r : Except Failure α) : (ofExcept r).follow s = (r, s) := rfl

/-- A change of the staged tables, and nothing else. -/
theorem follow_stage (f : Database → α × Database) : (stage f).follow s =
    (.ok (f s.staged).1, { s with begun := true, staged := (f s.staged).2 }) := rfl

/-- A change of the staged tables is made, or fails and leaves them. -/
theorem follow_stageOrFail (f : Database → Except Failure (α × Database)) :
    (stageOrFail f).follow s =
      match f s.staged with
      | .ok (a, staged) => (.ok a, { s with begun := true, staged })
      | .error e => (.error e, { s with begun := true }) := by
  unfold stageOrFail begin
  rw [follow_bind, follow_modify]
  dsimp only
  rw [follow_bind, follow_get]
  dsimp only
  rcases f s.staged with e | ⟨a, staged⟩ <;> rfl

/-- An integer that its column can hold is let through. -/
theorem follow_word {n : Int} (h : Scalar.fitsWord n = true) :
    (word n).follow s = (.ok (), { s with begun := true }) := by
  unfold word
  rw [if_pos h]
  rfl

/-- An integer that its column cannot hold is refused. -/
theorem follow_word_of_not {n : Int} (h : ¬ Scalar.fitsWord n = true) :
    (word n).follow s = (.error .integerTooLarge, { s with begun := true }) := by
  unfold word
  rw [if_neg h]
  rfl

/-! ## Operations with a script that tells no lies -/

section operations

variable (h : s.script.IsHonest)

include h

/-- The ledger is read some time later, or the operation raises. -/
theorem follow_ledgerExists_of_honest (eventKey : String) :
    ∃ t, Later s t ∧
      ((ledgerExists eventKey).follow s =
          (.ok (s.staged.isRecorded eventKey), { t with begun := true }) ∨
        s.script ≠ .none ∧ ∃ e, (ledgerExists eventKey).follow s = (.error e, t)) := by
  obtain ⟨t, hlater, hperform⟩ := follow_perform_of_honest h .ledgerExists
    (fun n => decide (n ≠ 0)) (inspect fun tables => tables.isRecorded eventKey)
  refine ⟨t, hlater, hperform.imp_left fun hread => ?_⟩
  rw [← hlater.staged]
  exact hread

/-- A key that is not in the ledger is staged to be there. -/
theorem follow_ledgerAdd_of_honest {eventKey : String} (now : Instant)
    (hnew : s.staged.isRecorded eventKey = false) :
    ∃ t row, Later s t ∧ row.eventKey = eventKey ∧
      ((ledgerAdd eventKey now).follow s = (.ok (), { t with
          begun := true
          staged := { s.staged with ledger := s.staged.ledger ++ [row] } }) ∨
        s.script ≠ .none ∧ ∃ e, (ledgerAdd eventKey now).follow s = (.error e, t)) := by
  let row : LedgerRow := ⟨nextId (s.staged.ledger.map (·.id)), eventKey, now⟩
  have hrecord : s.staged.record eventKey now =
      .ok { s.staged with ledger := s.staged.ledger ++ [row] } :=
    if_neg (by rw [hnew]; exact Bool.false_ne_true)
  obtain ⟨t, hlater, hattempt⟩ := follow_attempt_of_honest h .ledgerAdd <| stageOrFail fun d =>
    (d.record eventKey now).map ((), ·)
  refine ⟨t, row, hlater, rfl, hattempt.imp_left fun hadded => hadded.trans ?_⟩
  rw [follow_stageOrFail, hlater.staged, hrecord]
  rfl

/-- What is staged is stored. -/
theorem follow_commit_of_honest (hbegun : s.begun = true) :
    ∃ t, Later s t ∧
      (commit.follow s = (.ok (), { t with stored := s.staged, begun := false }) ∨
        s.script ≠ .none ∧ ∃ e, commit.follow s = (.error e, t)) := by
  obtain ⟨t, hlater, hperform⟩ := follow_perform_of_honest h .commit (fun _ => ()) <|
    modify fun s => if s.begun then { s with stored := s.staged, begun := false } else s
  refine ⟨t, hlater, hperform.imp_left fun hcommitted => hcommitted.trans ?_⟩
  rw [follow_modify, if_pos (hlater.begun.trans hbegun), hlater.staged]

/-- The tasks of a user are staged to go, or the identifier is too large, or something is raised. -/
theorem follow_taskCascade_of_honest (user : Int) :
    ∃ t, Later s t ∧
      ((Scalar.fitsWord user = true ∧ ∃ n, (taskCascade user).follow s =
          (.ok n, { t with begun := true, staged := (s.staged.deleteTasksOf user).2 })) ∨
        (¬ Scalar.fitsWord user = true ∧ (taskCascade user).follow s =
          (.error .integerTooLarge, { t with begun := true })) ∨
        (s.script ≠ .none ∧ ∃ e, (taskCascade user).follow s = (.error e, t))) := by
  let real : Work Int := do
    word user
    stage fun d => (((d.deleteTasksOf user).1 : Int), (d.deleteTasksOf user).2)
  obtain ⟨t, hlater, hperform⟩ := follow_perform_of_honest h .taskCascade id real
  have hcascade : taskCascade user = perform .taskCascade id real := rfl
  rw [← hcascade] at hperform
  refine ⟨t, hlater, ?_⟩
  rcases hperform with hdone | hraised
  · rw [hdone, follow_bind]
    by_cases hfits : Scalar.fitsWord user = true
    · rw [follow_word hfits]
      dsimp only
      rw [follow_stage, ← hlater.staged]
      exact .inl ⟨hfits, _, rfl⟩
    · rw [follow_word_of_not hfits]
      exact .inr (.inl ⟨hfits, rfl⟩)
  · exact .inr (.inr hraised)

end operations

end EventRelay.Work
