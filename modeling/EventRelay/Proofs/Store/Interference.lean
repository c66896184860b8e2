import EventRelay.Store.Work

/-!
# Units of work among others

What a unit of work comes to while others go on at its waits.  A `Setting` says what the others
may do to its session in a wait and which outcomes its operations may have; `Meets` then says that
a unit of work, from a session, waits only as long as it has stored nothing and ends as a
postcondition tells.

* `meets_bind`, `meets_tryCatch` take programs apart; `meets_modify` and its like run single steps.
* `meets_attempt`, `meets_perform`: an operation of the database under a condition on the session
  that no wait destroys.  Each either raises, and then nothing has happened, or goes through.
* `of_part_ended`, `of_part_waits`: what a unit of work does until it ends or waits.
* `follow_of_meets`: with nobody else about, the postcondition is one of `Work.follow`.

A postcondition also gets the stored tables as the unit of work found them after its last wait, so
it can tell what was stored by the unit itself from what was stored by others.
-/

namespace EventRelay

/-! ## Scripts -/

/-- Every outcome that a script holds for an operation is an allowed one. -/
def DbScript.Within (allowed : DbOp → Turn Int → Prop) (script : DbScript) : Prop :=
  ∀ op, ∀ o ∈ script op, allowed op o.turn

/-- An outcome by which an operation is really done or raises; it gives no answer by itself. -/
def Turn.IsHonest {α : Type} (turn : Turn α) : Prop := ∀ a, turn ≠ .answer a

/-- Operations are done or raise; none answers by itself. -/
def DbScript.IsHonest (script : DbScript) : Prop := script.Within fun _ turn => turn.IsHonest

/-- A script without outcomes is within any limits. -/
theorem DbScript.within_none {allowed : DbOp → Turn Int → Prop} :
    DbScript.none.Within allowed := by
  intro op o ho
  cases ho

namespace Work

/-- A wait ends well, or because the activity is cancelled in it. -/
def IsWake (r : Except Failure Unit) : Prop := ∀ e, r = .error e → e.isCancellation = true

/-- The outcomes that operations of the database may have. -/
structure Rules where
  /-- The outcomes of each operation. -/
  allowed : DbOp → Turn Int → Prop
  /-- Every operation may be done. -/
  through : ∀ op, allowed op .through
  /-- No operation answers by itself. -/
  honest : ∀ op turn, allowed op turn → turn.IsHonest

/-- What a unit of work may count on. -/
structure Setting extends Rules where
  /-- How a session may have changed at the end of a wait. -/
  rely : Session → Session → Prop
  /-- Nobody else touches the script. -/
  script_eq : ∀ {s t}, rely s t → t.script = s.script

variable {α β : Type}

/-- From a session, with the stored tables as they were found after the last wait, a unit of work
waits only as long as it has stored nothing, and ends as `Q` tells. -/
def Meets (env : Setting) (Q : Database → Except Failure α → Session → Prop) :
    Work α → Database → Session → Prop
  | done r, found, s => Q found r s
  | look next, found, s => Meets env Q (next s) found s
  | change f next, found, s => Meets env Q next found (f s)
  | lag _ next, found, s =>
    s.stored = found ∧ ∀ t, env.rely s t → ∀ r, IsWake r → Meets env Q (next r) t.stored t

variable {env : Setting} {Q : Database → Except Failure α → Session → Prop}
  {found : Database} {s : Session}

/-! ## Programs -/

/-- What comes after a program is the postcondition of the program, however it ends. -/
theorem meets_whenDone {Q : Database → Except Failure β → Session → Prop} (w : Work α)
    (k : Except Failure α → Work β) :
    Meets env Q (w.whenDone k) found s ↔
      Meets env (fun found r s => Meets env Q (k r) found s) w found s := by
  induction w generalizing found s with
  | done r => rfl
  | look next ih => exact ih s
  | change f next ih => exact ih
  | lag span next ih =>
    constructor
    · rintro ⟨h, hnext⟩
      exact ⟨h, fun t ht r hr => (ih r).mp (hnext t ht r hr)⟩
    · rintro ⟨h, hnext⟩
      exact ⟨h, fun t ht r hr => (ih r).mpr (hnext t ht r hr)⟩

/-- The postcondition for the first part of a program: an error is passed on, anything else goes
into the second part. -/
def passOn (env : Setting) (Q : Database → Except Failure β → Session → Prop)
    (k : α → Work β) (found : Database) (r : Except Failure α) (s : Session) : Prop :=
  match r with
  | .ok a => Meets env Q (k a) found s
  | .error e => Q found (.error e) s

/-- A program and one after it: the second part is the postcondition of the first. -/
theorem meets_bind {Q : Database → Except Failure β → Session → Prop} (w : Work α)
    (k : α → Work β) :
    Meets env Q (w >>= k) found s ↔ Meets env (passOn env Q k) w found s := by
  refine (meets_whenDone w _).trans ?_
  refine iff_of_eq (congrArg (fun Q => Meets env Q w found s) ?_)
  funext found r s
  cases r <;> rfl

/-- The postcondition for a program whose failures are handled. -/
def handled (env : Setting) (Q : Database → Except Failure α → Session → Prop)
    (handler : Failure → Work α) (found : Database) (r : Except Failure α) (s : Session) : Prop :=
  match r with
  | .ok a => Q found (.ok a) s
  | .error e => Meets env Q (handler e) found s

/-- A program whose failures are handled meets what the handler makes of them. -/
theorem meets_tryCatch (w : Work α) (handler : Failure → Work α) :
    Meets env Q (tryCatch w handler) found s ↔ Meets env (handled env Q handler) w found s := by
  refine (meets_whenDone w _).trans ?_
  refine iff_of_eq (congrArg (fun Q => Meets env Q w found s) ?_)
  funext found r s
  cases r <;> rfl

/-- A postcondition may be weakened. -/
theorem meets_mono {Q' : Database → Except Failure α → Session → Prop} {w : Work α}
    (h : Meets env Q w found s) (hQ : ∀ found r s, Q found r s → Q' found r s) :
    Meets env Q' w found s := by
  induction w generalizing found s with
  | done r => exact hQ _ _ _ h
  | look next ih => exact ih s h
  | change f next ih => exact ih h
  | lag span next ih => exact ⟨h.1, fun t ht r hr => ih r (h.2 t ht r hr)⟩

/-! ## Steps -/

/-- A program that does nothing ends as it is. -/
@[simp] theorem meets_pure (a : α) :
    Meets env Q (pure a : Work α) found s ↔ Q found (.ok a) s := Iff.rfl

/-- A program that fails at once ends with that failure. -/
@[simp] theorem meets_throw (e : Failure) :
    Meets env Q (throw e : Work α) found s ↔ Q found (.error e) s := Iff.rfl

/-- A program that ends with a result at once has just that result. -/
@[simp] theorem meets_ofExcept (r : Except Failure α) :
    Meets env Q (ofExcept r) found s ↔ Q found r s := Iff.rfl

/-- A look at the session gives the session. -/
@[simp] theorem meets_get {Q : Database → Except Failure Session → Session → Prop} :
    Meets env Q (get : Work Session) found s ↔ Q found (.ok s) s := Iff.rfl

/-- A change of the session ends in the changed one. -/
@[simp] theorem meets_modify {Q : Database → Except Failure Unit → Session → Prop}
    (f : Session → Session) :
    Meets env Q (modify f : Work Unit) found s ↔ Q found (.ok ()) (f s) := Iff.rfl

/-- A look at the clock gives the time of the session. -/
@[simp] theorem meets_now {Q : Database → Except Failure Instant → Session → Prop} :
    Meets env Q now found s ↔ Q found (.ok s.now) s := Iff.rfl

/-- A notice is added to those that are there. -/
@[simp] theorem meets_tell {Q : Database → Except Failure Unit → Session → Prop} (n : Notice) :
    Meets env Q (tell n) found s ↔
      Q found (.ok ()) { s with notices := s.notices ++ [n] } := Iff.rfl

/-- An integer that its column cannot hold is refused. -/
theorem meets_word {Q : Database → Except Failure Unit → Session → Prop} (n : Int) :
    Meets env Q (word n) found s ↔
      Q found (if Scalar.fitsWord n then .ok () else .error .integerTooLarge)
        { s with begun := true } := by
  unfold word begin
  rw [meets_bind, meets_modify]
  simp only [passOn]
  split <;> exact Iff.rfl

/-- A change of the staged tables is made, or fails and leaves them. -/
theorem meets_stageOrFail (f : Database → Except Failure (α × Database)) :
    Meets env Q (stageOrFail f) found s ↔
      match f s.staged with
      | .ok (a, staged) => Q found (.ok a) { s with begun := true, staged }
      | .error e => Q found (.error e) { s with begun := true } := by
  unfold stageOrFail begin
  rw [meets_bind, meets_modify]
  simp only [passOn, meets_bind, meets_get]
  cases f s.staged with
  | ok r => exact Iff.rfl
  | error e => exact Iff.rfl

/-! ## Operations under a script -/

/-- A condition that neither a look at the script nor a wait destroys. -/
structure Stable (env : Setting) (P : Session → Prop) : Prop where
  /-- Scripts do not matter. -/
  played : ∀ {s : Session} (script : DbScript), P s → P { s with script }
  /-- Others keep it. -/
  kept : ∀ {s t : Session}, P s → env.rely s t → P t

/-- What is next in a script is allowed, and so is what is left of it. -/
theorem Setting.within_next (env : Setting) {script : DbScript}
    (h : script.Within env.allowed) (op : DbOp) :
    env.allowed op (Outcome.next (script op)).1.turn ∧
      DbScript.Within env.allowed
        (fun op' => if op' = op then (Outcome.next (script op)).2 else script op') := by
  have hnext : env.allowed op (Outcome.next (script op)).1.turn ∧
      ∀ o ∈ (Outcome.next (script op)).2, env.allowed op o.turn := by
    have hall := h op
    rcases hscript : script op with _ | ⟨o, rest⟩
    · exact ⟨env.through op, fun _ ho => absurd ho List.not_mem_nil⟩
    · rw [hscript] at hall
      exact ⟨hall o List.mem_cons_self, fun o' ho' => hall o' (List.mem_cons_of_mem _ ho')⟩
  refine ⟨hnext.1, fun op' o ho => ?_⟩
  dsimp only at ho
  by_cases hop : op' = op
  · subst hop
    rw [if_pos rfl] at ho
    exact hnext.2 o ho
  · rw [if_neg hop] at ho
    exact h op' o ho

section operations

variable {P : Session → Prop} (hP : Stable env P) (hs : P s)
  (hscript : s.script.Within env.allowed) (hfound : s.stored = found)

include hP hs hscript hfound

/-- What an operation's script brings: a wait in which it may be cancelled, then an allowed
outcome. -/
theorem meets_outcome {Q : Database → Except Failure (Turn Int) → Session → Prop} (op : DbOp)
    (cancelled : ∀ t e, P t → t.script.Within env.allowed → e.isCancellation = true →
      Q t.stored (.error e) t)
    (played : ∀ t turn, P t → t.script.Within env.allowed → env.allowed op turn →
      Q t.stored (.ok turn) t) :
    Meets env Q (outcome op) found s := by
  subst hfound
  obtain ⟨hturn, hrest⟩ := env.within_next hscript op
  rcases hnext : Outcome.next (s.script op) with ⟨o, rest⟩
  rw [hnext] at hturn hrest
  let s' : Session := { s with script := fun op' => if op' = op then rest else s.script op' }
  have hs' : P s' := hP.played _ hs
  unfold outcome
  rw [meets_bind, meets_get]
  simp only [passOn, hnext]
  change Meets env Q (pause o.delay >>= fun _ => pure o.turn) s.stored s'
  rw [meets_bind]
  unfold pause
  split
  · exact played s' o.turn hs' hrest hturn
  · refine ⟨rfl, fun t ht r hr => ?_⟩
    have ht' : P t := hP.kept hs' ht
    have htscript : t.script.Within env.allowed := by
      rw [env.script_eq ht]
      exact hrest
    cases r with
    | ok u => exact played t o.turn ht' htscript hturn
    | error e => exact cancelled t e ht' htscript (hr e rfl)

/-- An operation that gives no answers by itself: it raises and nothing has happened, or is really
done. -/
theorem meets_attempt {real : Work α} (op : DbOp)
    (raised : ∀ t e, P t → t.script.Within env.allowed →
      env.allowed op (.raise e) ∨ e.isCancellation = true → Q t.stored (.error e) t)
    (real_meets : ∀ t, P t → t.script.Within env.allowed → Meets env Q real t.stored t) :
    Meets env Q (attempt op real) found s := by
  unfold attempt
  rw [meets_bind]
  refine meets_outcome hP hs hscript hfound op
    (fun t e ht htscript he => raised t e ht htscript (.inr he)) ?_
  intro t turn ht htscript hturn
  cases turn with
  | through => exact real_meets t ht htscript
  | raise e => exact raised t e ht htscript (.inl hturn)
  | answer n => exact real_meets t ht htscript

/-- An operation that could answer by itself, but does not in this setting. -/
theorem meets_perform {real : Work α} (op : DbOp) (answer : Int → α)
    (raised : ∀ t e, P t → t.script.Within env.allowed →
      env.allowed op (.raise e) ∨ e.isCancellation = true → Q t.stored (.error e) t)
    (real_meets : ∀ t, P t → t.script.Within env.allowed → Meets env Q real t.stored t) :
    Meets env Q (perform op answer real) found s := by
  unfold perform
  rw [meets_bind]
  refine meets_outcome hP hs hscript hfound op
    (fun t e ht htscript he => raised t e ht htscript (.inr he)) ?_
  intro t turn ht htscript hturn
  cases turn with
  | through => exact real_meets t ht htscript
  | raise e => exact raised t e ht htscript (.inl hturn)
  | answer n => exact absurd rfl (env.honest op _ hturn n)

end operations

/-! ## Part by part -/

/-- How far a unit of work gets. -/
inductive Stop (α : Type) where
  /-- It has ended. -/
  | ended (result : Except Failure α)
  /-- It waits. -/
  | waits (next : Except Failure Unit → Work α)

/-- Lets a unit of work go on until it waits or ends. -/
def part : Work α → Session → Stop α × Session
  | done r, s => (.ended r, s)
  | look next, s => (next s).part s
  | change f next, s => next.part (f s)
  | lag _ next, s => (.waits next, s)

/-- A unit of work that comes to its end without a wait ends as the postcondition tells. -/
theorem of_part_ended {w : Work α} {r : Except Failure α} {t : Session}
    (h : Meets env Q w found s) (hpart : w.part s = (.ended r, t)) : Q found r t := by
  induction w generalizing s with
  | done r' =>
    cases hpart
    exact h
  | look next ih => exact ih s h hpart
  | change f next ih => exact ih h hpart
  | lag span next ih => cases hpart

/-- A unit of work that waits has stored nothing, and goes on as well. -/
theorem of_part_waits {w : Work α} {next : Except Failure Unit → Work α} {t : Session}
    (h : Meets env Q w found s) (hpart : w.part s = (.waits next, t)) :
    t.stored = found ∧
      ∀ u, env.rely t u → ∀ r, IsWake r → Meets env Q (next r) u.stored u := by
  induction w generalizing s with
  | done r' => cases hpart
  | look next ih => exact ih s h hpart
  | change f next ih => exact ih h hpart
  | lag span next ih =>
    cases hpart
    exact h

/-! ## With nobody else about -/

/-- Every operation is done or raises. -/
def Rules.fair : Rules where
  allowed _ turn := turn.IsHonest
  through _ _ := by simp
  honest _ _ h := h

/-- Nothing but time passes in a wait, and operations are done or raise. -/
def Setting.alone : Setting where
  toRules := .fair
  rely s t := ∃ now, t = { s with now }
  script_eq := by
    rintro s t ⟨now, rfl⟩
    rfl

/-- The same session but for its time and its script. -/
def Resembles (s t : Session) : Prop := ∃ now script, t = { s with now, script }

/-- A session resembles itself. -/
theorem Resembles.refl (s : Session) : Resembles s s := ⟨s.now, s.script, rfl⟩

/-- A session that is alone still resembles what it was after a wait. -/
theorem Resembles.stable (s : Session) : Stable .alone (Resembles s) where
  played := by
    rintro t script ⟨now, _, rfl⟩
    exact ⟨now, script, rfl⟩
  kept := by
    rintro t u ⟨_, script, rfl⟩ ⟨now, rfl⟩
    exact ⟨now, script, rfl⟩

/-- What a unit of work meets when it is alone holds where it is followed. -/
theorem follow_of_meets {w : Work α} (h : Meets .alone Q w s.stored s) :
    Q s.stored (w.follow s).1 (w.follow s).2 := by
  have hgen : ∀ found, Meets .alone Q w found s → Q found (w.follow s).1 (w.follow s).2 := by
    clear h
    induction w generalizing s with
    | done r => exact fun _ h => h
    | look next ih => exact fun found h => ih s found h
    | change f next ih => exact fun found h => ih found h
    | lag span next ih =>
      rintro found ⟨rfl, hnext⟩
      exact ih (.ok ()) _ (hnext { s with now := s.now + span } ⟨_, rfl⟩ (.ok ()) nofun)
  exact hgen s.stored h

end Work

end EventRelay
