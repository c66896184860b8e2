import EventRelay.Breaker
import Mathlib.Data.List.Induction
import Mathlib.Order.Lattice

/-!
# What a breaker did and what it shows

A breaker is asked for permission and told of outcomes, in any order: nothing forces an outcome to
follow a permission, or the clock to go on.  What happened is noted down beside the breaker, the
last first.  The counters and the flag of the breaker are functions of these notes, and so is the
permission for a trial: it is given once between two outcomes, and late enough.

* `Audited`: what the fields of a breaker say of its history.
* `Audited.step`: one call keeps that.
* `exists_run_of_suffix`: what happened up to some point is the history of a shorter run, so a law
  of every run is a law of every part of a history.
* `run_lawful`: the laws of every run, of its last state and of all that happened before.
-/

namespace EventRelay

namespace Breaker

variable {τ : Type}

/-! ## Histories -/

/-- A call of a breaker, with what the clock reads where that is looked at. -/
inductive Call (τ : Type) where
  /-- It is asked for permission. -/
  | ask (now : τ)
  /-- It is told of a success. -/
  | success
  /-- It is told of a failure. -/
  | failure (now : τ)

/-- What a call came to. -/
inductive Event (τ : Type) where
  /-- A permission was given, the circuit being found like this. -/
  | granted (now : τ) (found : Circuit)
  /-- A permission was refused. -/
  | refused
  /-- A success was recorded. -/
  | succeeded
  /-- A failure was recorded, and it opened the circuit or not. -/
  | failed (now : τ) (opened : Bool)

/-- A recorded outcome. -/
def Event.isOutcome : Event τ → Bool
  | .succeeded => true
  | .failed _ _ => true
  | _ => false

/-- A recorded success. -/
def Event.isSuccess : Event τ → Bool
  | .succeeded => true
  | _ => false

/-- A recorded failure. -/
def Event.isFailure : Event τ → Bool
  | .failed _ _ => true
  | _ => false

/-- A refusal. -/
def Event.isRefusal : Event τ → Bool
  | .refused => true
  | _ => false

/-- A permission while the circuit was not closed. -/
def Event.isTrial : Event τ → Bool
  | .granted _ found => found != .closed
  | _ => false

/-- When the circuit was opened by this. -/
def Event.openedAt? : Event τ → Option τ
  | .failed now true => some now
  | _ => none

/-- The failures recorded since the last success. -/
def failuresIn (history : List (Event τ)) : Nat :=
  (history.takeWhile fun e => !e.isSuccess).countP Event.isFailure

/-- What happened since the last recorded outcome. -/
def sinceOutcome (history : List (Event τ)) : List (Event τ) :=
  history.takeWhile fun e => !e.isOutcome

/-- When the circuit opened last. -/
def lastOpening? (history : List (Event τ)) : Option τ := history.findSome? Event.openedAt?

section histories

variable {history : List (Event τ)} {now : τ} {found : Circuit} {opened : Bool}

/-- A permission is no failure. -/
@[simp] theorem failuresIn_granted :
    failuresIn (.granted now found :: history) = failuresIn history := by
  simp [failuresIn, Event.isSuccess, Event.isFailure]

/-- A refusal is no failure. -/
@[simp] theorem failuresIn_refused : failuresIn (.refused :: history) = failuresIn history := by
  simp [failuresIn, Event.isSuccess, Event.isFailure]

/-- After a success there are no failures. -/
@[simp] theorem failuresIn_succeeded : failuresIn (.succeeded :: history) = 0 := by
  simp [failuresIn, Event.isSuccess]

/-- A failure is one more. -/
@[simp] theorem failuresIn_failed :
    failuresIn (.failed now opened :: history) = failuresIn history + 1 := by
  rw [failuresIn, List.takeWhile_cons_of_pos rfl, List.countP_cons_of_pos rfl, failuresIn]

/-- Nothing has happened since an outcome that was just recorded. -/
theorem sinceOutcome_of_outcome {e : Event τ} (h : e.isOutcome = true) :
    sinceOutcome (e :: history) = [] := by
  simp [sinceOutcome, h]

/-- What is no outcome has happened since the last one. -/
theorem sinceOutcome_of_not_outcome {e : Event τ} (h : e.isOutcome = false) :
    sinceOutcome (e :: history) = e :: sinceOutcome history := by
  simp [sinceOutcome, h]

/-- What does not open the circuit leaves the last opening. -/
theorem lastOpening?_of_none {e : Event τ} (h : e.openedAt? = none) :
    lastOpening? (e :: history) = lastOpening? history := by
  simp [lastOpening?, h]

/-- What opens the circuit is the last opening. -/
theorem lastOpening?_of_some {e : Event τ} (h : e.openedAt? = some now) :
    lastOpening? (e :: history) = some now := by
  simp [lastOpening?, h]

/-- A part of a history without outcomes lies between two outcomes. -/
theorem prefix_sinceOutcome {segment earlier : List (Event τ)}
    (h : ∀ e ∈ segment, e.isOutcome = false) : segment <+: sinceOutcome (segment ++ earlier) := by
  rw [sinceOutcome, List.takeWhile_append_of_pos fun e he => by rw [h e he]; rfl]
  exact List.prefix_append ..

end histories

/-! ## One call -/

section calls

variable {cfg : BreakerConfig τ} {b : Breaker τ} {now : τ}

section asking

variable [Sub τ] [LE τ] [DecidableLE τ]

/-- A closed circuit lets every call through. -/
theorem allow_of_closed (h : b.circuit = .closed) : b.allow cfg now = (true, b) := by
  simp [allow, h]

/-- An open circuit lets a trial through once the recovery time has passed. -/
theorem allow_of_due (h : b.circuit = .open) (hdue : cfg.recovery ≤ now - b.openedAt) :
    b.allow cfg now = (true, { b with circuit := .halfOpen, trial := true }) := by
  simp [allow, h, hdue]

/-- An open circuit refuses before that. -/
theorem allow_of_early (h : b.circuit = .open) (hearly : ¬ cfg.recovery ≤ now - b.openedAt) :
    b.allow cfg now = b.refuse := by
  simp [allow, h, hearly]

/-- A half-open circuit refuses while its trial is under way. -/
theorem allow_of_trial (h : b.circuit = .halfOpen) (htrial : b.trial = true) :
    b.allow cfg now = b.refuse := by
  simp [allow, h, htrial]

/-- A refusal is counted, whatever it is for. -/
theorem allow_of_refused (h : (b.allow cfg now).1 = false) : b.allow cfg now = b.refuse := by
  unfold allow at h ⊢
  cases hcircuit : b.circuit with
  | closed => simp [hcircuit] at h
  | «open» =>
    by_cases hdue : cfg.recovery ≤ now - b.openedAt
    · simp [hcircuit, hdue] at h
    · simp [hdue]
  | halfOpen =>
    cases htrial : b.trial with
    | true => simp
    | false => simp [hcircuit, htrial] at h

end asking

/-- A failure while the circuit is open is only counted. -/
theorem fail_of_open (h : b.circuit = .open) :
    (b.fail cfg now).1 = { b with failures := b.failures + 1, trial := false } := by
  simp [fail, h]

/-- A failure of the trial opens the circuit again. -/
theorem fail_of_halfOpen (h : b.circuit = .halfOpen) :
    (b.fail cfg now).1 = ({ b with failures := b.failures + 1, trial := false }).trip now := by
  simp [fail, h]

/-- A failure that reaches the threshold opens the circuit. -/
theorem fail_of_reached (h : b.circuit = .closed) (hreached : cfg.threshold ≤ b.failures + 1) :
    (b.fail cfg now).1 = ({ b with failures := b.failures + 1, trial := false }).trip now := by
  simp [fail, h, hreached]

/-- A failure below the threshold is only counted. -/
theorem fail_of_below (h : b.circuit = .closed) (hbelow : ¬ cfg.threshold ≤ b.failures + 1) :
    (b.fail cfg now).1 = { b with failures := b.failures + 1, trial := false } := by
  simp [fail, h, hbelow]

end calls

/-! ## The invariant -/

/-- A breaker and what happened to it, the last first. -/
structure Observed (τ : Type) where
  /-- The breaker. -/
  breaker : Breaker τ
  /-- What happened. -/
  history : List (Event τ)

/-- What the fields of a breaker say of its history. -/
structure Audited (cfg : BreakerConfig τ) (o : Observed τ) : Prop where
  /-- A trial is under way exactly when the circuit is half open. -/
  trial : o.breaker.trial = true ↔ o.breaker.circuit = .halfOpen
  /-- The failures are those since the last success. -/
  failures : o.breaker.failures = failuresIn o.history
  /-- A closed circuit has not seen enough of them. -/
  closed : o.breaker.circuit = .closed → (o.breaker.failures : Int) < max 1 cfg.threshold
  /-- The refusals are counted. -/
  rejected : o.breaker.rejected = o.history.countP Event.isRefusal
  /-- Since the last outcome one trial was permitted, if the circuit is half open, and else none. -/
  trials : (sinceOutcome o.history).countP Event.isTrial =
    if o.breaker.circuit = .halfOpen then 1 else 0
  /-- A circuit that is not closed has opened, and the time of that is known. -/
  opened : o.breaker.circuit ≠ .closed → lastOpening? o.history = some o.breaker.openedAt

section invariant

variable {cfg : BreakerConfig τ} {o : Observed τ}

/-- A new breaker has no history to agree with. -/
theorem audited_fresh (start : τ) : Audited cfg ⟨fresh start, []⟩ where
  trial := ⟨nofun, nofun⟩
  failures := rfl
  closed _ := by
    simp [fresh]
  rejected := rfl
  trials := rfl
  opened h := absurd rfl h

/-- Since the last outcome at most one trial was permitted. -/
theorem Audited.single (h : Audited cfg o) :
    (sinceOutcome o.history).countP Event.isTrial ≤ 1 := by
  rw [h.trials]
  split <;> decide

/-- A refusal is counted, and nothing else changes. -/
theorem Audited.refuse (h : Audited cfg o) :
    Audited cfg ⟨o.breaker.refuse.2, .refused :: o.history⟩ where
  trial := h.trial
  failures := h.failures.trans failuresIn_refused.symm
  closed := h.closed
  rejected := by
    rw [List.countP_cons_of_pos rfl, ← h.rejected]
    rfl
  trials := by
    rw [sinceOutcome_of_not_outcome rfl, List.countP_cons_of_neg Bool.false_ne_true]
    exact h.trials
  opened hne := (lastOpening?_of_none rfl).trans (h.opened hne)

/-- A permission while the circuit is closed changes nothing. -/
theorem Audited.pass (h : Audited cfg o) (now : τ) (hclosed : o.breaker.circuit = .closed) :
    Audited cfg ⟨o.breaker, .granted now .closed :: o.history⟩ where
  trial := h.trial
  failures := h.failures.trans failuresIn_granted.symm
  closed := h.closed
  rejected := h.rejected.trans (List.countP_cons_of_neg Bool.false_ne_true).symm
  trials := by
    rw [sinceOutcome_of_not_outcome rfl, List.countP_cons_of_neg (by simp [Event.isTrial])]
    exact h.trials
  opened hne := absurd hclosed hne

/-- A permission while the circuit is open begins the trial. -/
theorem Audited.begin (h : Audited cfg o) (now : τ) (hopen : o.breaker.circuit = .open) :
    Audited cfg ⟨{ o.breaker with circuit := .halfOpen, trial := true },
      .granted now .open :: o.history⟩ where
  trial := by
    simp
  failures := h.failures.trans failuresIn_granted.symm
  closed := nofun
  rejected := h.rejected.trans (List.countP_cons_of_neg Bool.false_ne_true).symm
  trials := by
    have hnone : (sinceOutcome o.history).countP Event.isTrial = 0 := by
      rw [h.trials, hopen]
      rfl
    rw [sinceOutcome_of_not_outcome rfl, List.countP_cons_of_pos rfl, hnone]
    rfl
  opened _ := (lastOpening?_of_none rfl).trans (h.opened (by simp [hopen]))

/-- A success forgets the failures and closes the circuit. -/
theorem Audited.succeed (h : Audited cfg o) :
    Audited cfg ⟨o.breaker.succeed, .succeeded :: o.history⟩ where
  trial := by
    simp [Breaker.succeed]
  failures := failuresIn_succeeded.symm
  closed _ := by
    simp [Breaker.succeed]
  rejected := h.rejected.trans (List.countP_cons_of_neg Bool.false_ne_true).symm
  trials := by
    rw [sinceOutcome_of_outcome rfl]
    rfl
  opened hne := absurd rfl hne

/-- A failure that opens the circuit. -/
theorem Audited.trip (h : Audited cfg o) (now : τ) :
    Audited cfg ⟨({ o.breaker with failures := o.breaker.failures + 1, trial := false }).trip now,
      .failed now true :: o.history⟩ where
  trial := by
    simp [Breaker.trip]
  failures := by
    simp [Breaker.trip, h.failures]
  closed := nofun
  rejected := h.rejected.trans (List.countP_cons_of_neg Bool.false_ne_true).symm
  trials := by
    rw [sinceOutcome_of_outcome rfl]
    rfl
  opened _ := lastOpening?_of_some rfl

/-- A failure that leaves the circuit as it is, closed or open. -/
theorem Audited.endure (h : Audited cfg o) (now : τ) (hne : o.breaker.circuit ≠ .halfOpen)
    (hroom : o.breaker.circuit = .closed → (o.breaker.failures + 1 : Int) < cfg.threshold) :
    Audited cfg ⟨{ o.breaker with failures := o.breaker.failures + 1, trial := false },
      .failed now false :: o.history⟩ where
  trial := by
    simpa using hne
  failures := by
    simp [h.failures]
  closed hclosed := by
    have hbelow := hroom hclosed
    have hmax : ((o.breaker.failures + 1 : Nat) : Int) < max 1 cfg.threshold := by
      omega
    exact hmax
  rejected := h.rejected.trans (List.countP_cons_of_neg Bool.false_ne_true).symm
  trials := by
    rw [sinceOutcome_of_outcome rfl, if_neg hne]
    rfl
  opened hnot := (lastOpening?_of_none rfl).trans (h.opened hnot)

end invariant

/-! ## Runs -/

section runs

variable [Sub τ] [LE τ] [DecidableLE τ] (cfg : BreakerConfig τ)

/-- The breaker after a call. -/
def Observed.after (o : Observed τ) : Call τ → Breaker τ
  | .ask now => (o.breaker.allow cfg now).2
  | .success => o.breaker.succeed
  | .failure now => (o.breaker.fail cfg now).1

/-- What a call comes to. -/
def Observed.event (o : Observed τ) : Call τ → Event τ
  | .ask now =>
    if (o.breaker.allow cfg now).1 then .granted now o.breaker.circuit else .refused
  | .success => .succeeded
  | .failure now =>
    .failed now (o.breaker.circuit ≠ .open ∧ (o.breaker.fail cfg now).1.circuit = .open)

/-- A call is made and noted down. -/
def Observed.step (o : Observed τ) (c : Call τ) : Observed τ :=
  ⟨o.after cfg c, o.event cfg c :: o.history⟩

/-- Calls of a new breaker, one after the other. -/
def run (start : τ) (calls : List (Call τ)) : Observed τ :=
  calls.foldl (Observed.step cfg) ⟨fresh start, []⟩

variable {cfg} {o : Observed τ}

/-- A run with one call more is a step more. -/
theorem run_concat (start : τ) (calls : List (Call τ)) (c : Call τ) :
    run cfg start (calls ++ [c]) = (run cfg start calls).step cfg c :=
  List.foldl_append

/-- Every call is noted down, so what happened up to some point is all that happened to a shorter
run. -/
theorem exists_run_of_suffix {start : τ} {calls : List (Call τ)} {e : Event τ}
    {earlier : List (Event τ)} (h : e :: earlier <:+ (run cfg start calls).history) :
    ∃ shorter c, (run cfg start shorter).history = earlier ∧
      (run cfg start shorter).event cfg c = e := by
  induction calls using List.reverseRecOn with
  | nil => exact absurd (List.suffix_nil.mp h) nofun
  | append_singleton calls c ih =>
    rw [run_concat] at h
    rcases List.suffix_cons_iff.mp h with heq | hsuffix
    · cases heq
      exact ⟨calls, c, rfl, rfl⟩
    · exact ih hsuffix

/-- Every call leaves fields that agree with the history. -/
theorem Audited.step (h : Audited cfg o) (c : Call τ) : Audited cfg (o.step cfg c) := by
  unfold Observed.step
  cases c with
  | success => exact h.succeed
  | ask now =>
    simp only [Observed.after, Observed.event]
    cases hcircuit : o.breaker.circuit with
    | closed =>
      rw [allow_of_closed hcircuit]
      exact h.pass now hcircuit
    | «open» =>
      by_cases hdue : cfg.recovery ≤ now - o.breaker.openedAt
      · rw [allow_of_due hcircuit hdue]
        exact h.begin now hcircuit
      · rw [allow_of_early hcircuit hdue]
        exact h.refuse
    | halfOpen =>
      rw [allow_of_trial hcircuit (h.trial.mpr hcircuit)]
      exact h.refuse
  | failure now =>
    simp only [Observed.after, Observed.event]
    cases hcircuit : o.breaker.circuit with
    | closed =>
      by_cases hreached : cfg.threshold ≤ o.breaker.failures + 1
      · rw [fail_of_reached hcircuit hreached]
        exact h.trip now
      · rw [fail_of_below hcircuit hreached]
        simpa [hcircuit] using
          h.endure now (by simp [hcircuit]) fun _ => Int.not_le.mp hreached
    | «open» =>
      rw [fail_of_open hcircuit]
      simpa [hcircuit] using h.endure now (by simp [hcircuit]) (by simp [hcircuit])
    | halfOpen =>
      rw [fail_of_halfOpen hcircuit]
      exact h.trip now

/-- After any calls the fields agree with the history. -/
theorem audited_run (start : τ) (calls : List (Call τ)) : Audited cfg (run cfg start calls) := by
  induction calls using List.reverseRecOn with
  | nil => exact audited_fresh start
  | append_singleton calls c ih =>
    rw [run_concat]
    exact ih.step c

/-! ## The laws of a run -/

variable (cfg) in
/-- What a breaker shows is what happened to it, and its permissions are rare and late. -/
structure Lawful (o : Observed τ) : Prop extends Audited cfg o where
  /-- A closed circuit opens at the failure that makes the failures reach the threshold, and at no
  other call. -/
  opens : o.breaker.circuit = .closed → ∀ c,
    ((o.step cfg c).breaker.circuit = .open ↔
      (∃ now, c = .failure now) ∧
        ((o.step cfg c).breaker.failures : Int) = max 1 cfg.threshold) ∧
    ((o.step cfg c).breaker.circuit ≠ .open → (o.step cfg c).breaker.circuit = .closed)
  /-- Where no outcome was recorded, at most one trial was permitted. -/
  single : ∀ later segment earlier, o.history = later ++ (segment ++ earlier) →
    (∀ e ∈ segment, e.isOutcome = false) → segment.countP Event.isTrial ≤ 1
  /-- A trial was permitted only when the recovery time had passed since the last opening. -/
  late : ∀ later now found earlier, o.history = later ++ .granted now found :: earlier →
    found ≠ .closed → ∃ opened, lastOpening? earlier = some opened ∧ cfg.recovery ≤ now - opened
  /-- A failure while the circuit is open moves nothing. -/
  stays : o.breaker.circuit = .open → ∀ now,
    (o.step cfg (.failure now)).breaker.circuit = .open ∧
    (o.step cfg (.failure now)).breaker.openedAt = o.breaker.openedAt ∧
    lastOpening? (o.step cfg (.failure now)).history = lastOpening? o.history

/-- A closed circuit opens when the failures reach the threshold. -/
theorem Audited.opens (h : Audited cfg o) (hclosed : o.breaker.circuit = .closed) (c : Call τ) :
    ((o.step cfg c).breaker.circuit = .open ↔
      (∃ now, c = .failure now) ∧
        ((o.step cfg c).breaker.failures : Int) = max 1 cfg.threshold) ∧
    ((o.step cfg c).breaker.circuit ≠ .open → (o.step cfg c).breaker.circuit = .closed) := by
  have hroom := h.closed hclosed
  cases c with
  | ask now => simp [Observed.step, Observed.after, allow_of_closed hclosed, hclosed]
  | success => simp [Observed.step, Observed.after, Breaker.succeed]
  | failure now =>
    by_cases hreached : cfg.threshold ≤ o.breaker.failures + 1
    · have hfull : (o.breaker.failures : Int) + 1 = max 1 cfg.threshold := by
        omega
      simp [Observed.step, Observed.after, fail_of_reached hclosed hreached, Breaker.trip, hfull]
    · have hfew : (o.breaker.failures : Int) + 1 ≠ max 1 cfg.threshold := by
        omega
      simp [Observed.step, Observed.after, fail_of_below hclosed hreached, hclosed, hfew]

/-- A permission that does not come from a closed circuit ends the time of recovery. -/
theorem Audited.late (h : Audited cfg o) {c : Call τ} {now : τ} {found : Circuit}
    (hevent : o.event cfg c = .granted now found) (hfound : found ≠ .closed) :
    ∃ opened, lastOpening? o.history = some opened ∧ cfg.recovery ≤ now - opened := by
  cases c with
  | success => cases hevent
  | failure now' => cases hevent
  | ask now' =>
    simp only [Observed.event] at hevent
    cases hcircuit : o.breaker.circuit with
    | closed =>
      rw [allow_of_closed hcircuit, hcircuit] at hevent
      cases hevent
      exact absurd rfl hfound
    | halfOpen =>
      rw [allow_of_trial hcircuit (h.trial.mpr hcircuit)] at hevent
      cases hevent
    | «open» =>
      by_cases hdue : cfg.recovery ≤ now' - o.breaker.openedAt
      · rw [allow_of_due hcircuit hdue] at hevent
        cases hevent
        exact ⟨o.breaker.openedAt, h.opened (by simp [hcircuit]), hdue⟩
      · rw [allow_of_early hcircuit hdue] at hevent
        cases hevent

/-- The counters, the flag and the permissions of a breaker obey their laws after any calls in any
order, whatever the clock reads. -/
theorem run_lawful (cfg : BreakerConfig τ) (start : τ) (calls : List (Call τ)) :
    Lawful cfg (run cfg start calls) where
  toAudited := audited_run start calls
  opens := (audited_run start calls).opens
  single later segment earlier heq houtcomes := by
    cases segment with
    | nil => exact Nat.zero_le 1
    | cons e segment =>
      -- up to there it is the history of a run, and the segment is the end of it
      obtain ⟨shorter, c, hhistory, hevent⟩ := exists_run_of_suffix ⟨later, heq.symm⟩
      have hrun : (run cfg start (shorter ++ [c])).history = e :: segment ++ earlier := by
        rw [run_concat]
        exact congrArg₂ List.cons hevent hhistory
      have hpart : e :: segment <+: sinceOutcome (run cfg start (shorter ++ [c])).history := by
        rw [hrun]
        exact prefix_sinceOutcome houtcomes
      exact Nat.le_trans (hpart.sublist.countP_le) (audited_run start (shorter ++ [c])).single
  late later now found earlier heq hfound := by
    obtain ⟨shorter, c, hhistory, hevent⟩ := exists_run_of_suffix ⟨later, heq.symm⟩
    rw [← hhistory]
    exact (audited_run start shorter).late hevent hfound
  stays hopen now := by
    have hafter : ((run cfg start calls).breaker.fail cfg now).1 = _ := fail_of_open hopen
    refine ⟨?_, ?_, lastOpening?_of_none ?_⟩
    · simpa [Observed.step, Observed.after, hafter] using hopen
    · simp [Observed.step, Observed.after, hafter]
    · simp [Observed.event, Event.openedAt?, hopen]

/-- Two failures open a breaker, a call before its time is refused, the trial is one call, and its
failure opens the breaker anew. -/
example :
    (run (⟨"directory", 2, 10⟩ : BreakerConfig Int) 0
      [.failure 1, .failure 3, .ask 9, .ask 13, .ask 14, .failure 15]).history =
    [.failed 15 true, .refused, .granted 13 .open, .refused, .failed 3 true, .failed 1 false] := rfl

end runs

end Breaker

end EventRelay
