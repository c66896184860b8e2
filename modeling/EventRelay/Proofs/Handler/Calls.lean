import EventRelay.Proofs.Handler.Effect
import EventRelay.Proofs.Lists
import Mathlib.Data.List.Pairwise

/-!
# Calls of the handler, side by side

Any number of calls over one database, each with a connection of its own.  `Handlers` is what they
share together with the calls under way; `Step` is one thing that happens: a call begins, a call
goes on from one wait to the next, a call dies, others change users, tasks or the outbox.  Steps
come in any order, so a run is any interleaving; any operation may raise, and any wait may be
cancelled.

A row of the ledger is not stored as long as another call has added one of its key: the database
makes its writer wait until the other one has committed or given up.

* `Sound`: what a run preserves, above all what each call can still come to.
* `sound_step`, `sound_of_reachable`: it holds initially, and every step preserves it.
* `one_effect_per_key`: at most one call for each key has an effect, and it is the right one.
-/

namespace EventRelay

namespace Handler

/-- A call of the handler. -/
structure Call where
  /-- Its number. -/
  number : Nat
  /-- Whether it accepts free text. -/
  legacy : Bool
  /-- The delivery that it handles. -/
  delivery : Delivery
  /-- The tables as they were stored before and after each part of it, latest first. -/
  parts : List (Database × Database)

/-- The call after one more part, between these stored tables. -/
def Call.went (c : Call) (before after : Database) : Call :=
  { c with parts := (before, after) :: c.parts }

/-- A call under way. -/
structure Running extends Call where
  /-- What it does after its wait. -/
  next : Except Failure Unit → Work HandleOutcome
  /-- Its session, as it was when the wait began. -/
  session : Session

/-- A call that has ended. -/
structure Ended extends Call where
  /-- How it ended. -/
  result : Except Failure HandleOutcome

end Handler

/-- What calls of the handler share, and the calls themselves. -/
structure Handlers where
  /-- The tables as they are stored. -/
  stored : Database
  /-- The calls under way. -/
  running : List Handler.Running
  /-- The calls that have ended, latest first. -/
  ended : List Handler.Ended
  /-- How many calls there have been. -/
  count : Nat

namespace Handler

open Work

/-! ## Steps -/

/-- A call begins. -/
def begin (s : Handlers) (legacy : Bool) (d : Delivery) (session : Session) : Handlers :=
  { s with
    running := s.running ++ [⟨⟨s.count, legacy, d, []⟩, fun _ => handle legacy d, session⟩]
    count := s.count + 1 }

/-- A call has gone on until it waits or ends. -/
def proceed (s : Handlers) (before after : List Running) (c : Running)
    (part : Stop HandleOutcome × Session) : Handlers :=
  let call := c.went s.stored part.2.stored
  match part.1 with
  | .waits next =>
    { s with
      stored := part.2.stored
      running := before ++ ⟨call, next, part.2⟩ :: after }
  | .ended result =>
    { s with
      stored := part.2.stored
      running := before ++ after
      ended := ⟨call, result⟩ :: s.ended }

/-- No other call has added a row with the key of a row that gets into the ledger. -/
def Unblocked (others : List Running) (before after : Database) : Prop :=
  ∀ c ∈ others, ∀ row ∈ after.ledger, row ∉ before.ledger →
    row.eventKey ∉ c.session.pendingKeys

/-- One thing that happens among calls whose operations follow the rules. -/
inductive Step (rules : Rules) : Handlers → Handlers → Prop where
  /-- A call begins, in a session that has staged nothing. -/
  | begin (s : Handlers) (legacy : Bool) (d : Delivery) (session : Session)
      (hstored : session.stored = s.stored) (hstaged : session.staged = session.stored)
      (hscript : session.script.Within rules.allowed) : Step rules s (begin s legacy d session)
  /-- A call goes on until it waits or ends. -/
  | proceed (s : Handlers) {before after : List Running} {c : Running}
      (hc : s.running = before ++ c :: after) {t : Session} (ht : Awakened c.session t)
      (hstored : t.stored = s.stored) {r : Except Failure Unit} (hr : IsWake r)
      (hfree : Unblocked (before ++ after) s.stored ((c.next r).part t).2.stored) :
      Step rules s (proceed s before after c ((c.next r).part t))
  /-- A call dies. -/
  | die (s : Handlers) {before after : List Running} {c : Running}
      (hc : s.running = before ++ c :: after) :
      Step rules s { s with running := before ++ after }
  /-- Others change the users, the tasks or the outbox. -/
  | others (s : Handlers) {stored : Database} (hledger : stored.ledger = s.stored.ledger) :
      Step rules s { s with stored }

/-- What a run of calls can come to. -/
inductive Reachable (rules : Rules) : Handlers → Prop where
  /-- The beginning: no call yet. -/
  | start (stored : Database) : Reachable rules ⟨stored, [], [], 0⟩
  /-- One step further. -/
  | step {s s' : Handlers} (h : Reachable rules s) (hstep : Step rules s s') :
      Reachable rules s'

/-! ## What a run preserves -/

/-- A call that has not changed what is stored. -/
def Call.LeavesAlone (c : Call) : Prop := ∀ p ∈ c.parts, p.2 = p.1

/-- A task that was there whenever a call went on. -/
def Call.Saw (c : Call) (x : Task) : Prop := ∀ p ∈ c.parts, x ∈ p.1.tasks

/-- The last part of a call has stored its whole effect, and no other part anything: the tasks of
the user whose deletion the payload tells of are gone, and the ledger has one row more. -/
def Call.HasEffect (c : Call) : Prop :=
  ∃ before after rest, c.parts = (before, after) :: rest ∧ (∀ p ∈ rest, p.2 = p.1) ∧
    Commits c.Saw (deletedUser? c.legacy c.delivery.payload) c.delivery.eventKey before after

/-- What a call under way can still come to, if tasks that it saw are there all the time. -/
def Running.OnTrack (rules : Rules) (c : Running) : Prop :=
  ∀ stays : Task → Prop, (∀ x, stays x → c.Saw x) →
    ∀ t, (isolated stays rules).rely c.session t → ∀ r, IsWake r →
      Meets (isolated stays rules)
        (Concluded stays rules (deletedUser? c.legacy c.delivery.payload) c.delivery.eventKey)
        (c.next r) t.stored t

/-- What every run of calls preserves. -/
structure Sound (rules : Rules) (s : Handlers) : Prop where
  /-- A call under way has stored nothing. -/
  idle : ∀ c ∈ s.running, c.LeavesAlone
  /-- What it can still come to is right. -/
  onTrack : ∀ c ∈ s.running, c.OnTrack rules
  /-- Nobody has stored a row with a key that it has added. -/
  apart : ∀ c ∈ s.running, ∀ row ∈ s.stored.ledger, row ∉ c.session.stored.ledger →
    row.eventKey ∉ c.session.pendingKeys
  /-- A call that was answered with success has an effect. -/
  effect : ∀ e ∈ s.ended, e.result = .ok .processed → e.HasEffect
  /-- No other call has one. -/
  noEffect : ∀ e ∈ s.ended, e.result ≠ .ok .processed → e.LeavesAlone
  /-- What was processed is recorded, and what is said to have been, if the ledger can be relied
  upon. -/
  recorded : ∀ e ∈ s.ended, ∀ outcome, e.result = .ok outcome →
    (outcome = .alreadyProcessed → Faithful rules) →
    s.stored.isRecorded e.delivery.eventKey = true
  /-- No two calls were answered with success for one key. -/
  once : s.ended.Pairwise fun e e' => e.result = .ok .processed → e'.result = .ok .processed →
    e.delivery.eventKey ≠ e'.delivery.eventKey
  /-- Every call got the number that was next. -/
  numbered : (∀ c ∈ s.running, c.number < s.count) ∧ ∀ e ∈ s.ended, e.number < s.count

variable {rules : Rules} {s s' : Handlers} {before after : List Running} {c : Running}

/-- A call has left alone what is stored if its last part has, and those before. -/
@[simp] theorem leavesAlone_went (c : Call) (before after : Database) :
    (c.went before after).LeavesAlone ↔ after = before ∧ c.LeavesAlone := by
  simp [Call.LeavesAlone, Call.went]

/-- A call has seen a task if its last part has, and those before. -/
@[simp] theorem saw_went (c : Call) (before after : Database) (x : Task) :
    (c.went before after).Saw x ↔ x ∈ before.tasks ∧ c.Saw x := by
  simp [Call.Saw, Call.went]

/-- What is recorded still is where the ledger has more rows. -/
theorem isRecorded_of_subset {d d' : Database} {key : String} (h : d.isRecorded key = true)
    (hsub : ∀ row ∈ d.ledger, row ∈ d'.ledger) : d'.isRecorded key = true := by
  unfold Database.isRecorded at h ⊢
  obtain ⟨row, hrow, hkey⟩ := List.any_eq_true.mp h
  exact List.any_eq_true.mpr ⟨row, hsub row hrow, hkey⟩

section part

variable (hs : Sound rules s) (hc : s.running = before ++ c :: after) {t u : Session}
  (ht : Awakened c.session t) (hstored : t.stored = s.stored) {r : Except Failure Unit}
  (hr : IsWake r)

include hs hc ht hstored hr

/-- What a call comes to from a wait on. -/
theorem meets_next {stays : Task → Prop} (hsaw : ∀ x, stays x → c.Saw x)
    (hthere : ∀ x, stays x → x ∈ s.stored.tasks) :
    Meets (isolated stays rules)
      (Concluded stays rules (deletedUser? c.legacy c.delivery.payload) c.delivery.eventKey)
      (c.next r) s.stored t := by
  have hmem : c ∈ s.running := by simp [hc]
  have hresumed : Resumed c.session t := by
    refine ⟨ht, ?_⟩
    rw [hstored]
    exact hs.apart c hmem
  have hrely : (isolated stays rules).rely c.session t := by
    refine ⟨hresumed, fun x hx => ?_⟩
    rw [hstored]
    exact hthere x hx
  have hmeets := hs.onTrack c hmem stays hsaw t hrely r hr
  rw [hstored] at hmeets
  exact hmeets

/-- A call that waits again has stored nothing, and is still on track. -/
theorem onTrack_of_waits {next : Except Failure Unit → Work HandleOutcome}
    (hpart : (c.next r).part t = (.waits next, u)) :
    u.stored = s.stored ∧ Running.OnTrack rules ⟨c.went s.stored u.stored, next, u⟩ := by
  constructor
  · have hmeets := meets_next hs hc ht hstored hr (fun x (h : False) => h.elim)
      (fun x (h : False) => h.elim)
    exact (of_part_waits hmeets hpart).1
  · intro stays hstays
    have hmeets := meets_next hs hc ht hstored hr
      (fun x hx => ((saw_went _ _ _ _).mp (hstays x hx)).2)
      (fun x hx => ((saw_went _ _ _ _).mp (hstays x hx)).1)
    exact (of_part_waits hmeets hpart).2

/-- A part by which a call on track ends concludes it. -/
theorem concluded_of_ended {result : Except Failure HandleOutcome}
    (hpart : (c.next r).part t = (.ended result, u)) :
    Concluded (c.went s.stored u.stored).Saw rules (deletedUser? c.legacy c.delivery.payload)
      c.delivery.eventKey s.stored result u := by
  have hmeets := meets_next hs hc ht hstored hr
    (fun x hx => ((saw_went c.toCall s.stored u.stored x).mp hx).2)
    (fun x hx => ((saw_went c.toCall s.stored u.stored x).mp hx).1)
  exact of_part_ended hmeets hpart

end part

/-! ## One step further -/

/-- A new call is on track. -/
theorem onTrack_begin (number : Nat) (legacy : Bool) (d : Delivery) {session : Session}
    (hstaged : session.staged = session.stored) (hscript : session.script.Within rules.allowed) :
    Running.OnTrack rules ⟨⟨number, legacy, d, []⟩, fun _ => handle legacy d, session⟩ := by
  intro stays _ t ⟨hresumed, hthere⟩ r _
  have hsettled : t.staged = t.stored := by
    have hstaged' : t.staged = session.stored.rebase session.staged t.stored := hresumed.staged
    rw [hstaged', hstaged, Database.rebase_self]
  have hscript' : t.script.Within rules.allowed := by
    have hsame : t.script = session.script := hresumed.script
    rw [hsame]
    exact hscript
  exact meets_handle legacy d hthere hsettled hscript' rfl

/-- A call may begin. -/
theorem sound_begin (hs : Sound rules s) (legacy : Bool) (d : Delivery) {session : Session}
    (hstored : session.stored = s.stored) (hstaged : session.staged = session.stored)
    (hscript : session.script.Within rules.allowed) :
    Sound rules (begin s legacy d session) := by
  constructor
  case idle =>
    intro c hc
    rcases List.mem_append.mp hc with hc | hc
    · exact hs.idle c hc
    · simp [List.mem_singleton.mp hc, Call.LeavesAlone]
  case onTrack =>
    intro c hc
    rcases List.mem_append.mp hc with hc | hc
    · exact hs.onTrack c hc
    · rw [List.mem_singleton.mp hc]
      exact onTrack_begin s.count legacy d hstaged hscript
  case apart =>
    intro c hc row hrow hnew
    rcases List.mem_append.mp hc with hc | hc
    · exact hs.apart c hc row hrow hnew
    · rw [List.mem_singleton.mp hc, hstored] at hnew
      exact absurd hrow hnew
  case effect => exact hs.effect
  case noEffect => exact hs.noEffect
  case recorded => exact hs.recorded
  case once => exact hs.once
  case numbered =>
    constructor
    · intro c hc
      rcases List.mem_append.mp hc with hc | hc
      · exact Nat.lt_succ_of_lt (hs.numbered.1 c hc)
      · simp [List.mem_singleton.mp hc, begin]
    · exact fun e he => Nat.lt_succ_of_lt (hs.numbered.2 e he)

/-- A call may die. -/
theorem sound_die (hs : Sound rules s) (hc : s.running = before ++ c :: after) :
    Sound rules { s with running := before ++ after } := by
  have hsub : ∀ c' ∈ before ++ after, c' ∈ s.running := fun _ => mem_of_mem_remove hc
  exact ⟨fun c' hc' => hs.idle c' (hsub c' hc'), fun c' hc' => hs.onTrack c' (hsub c' hc'),
    fun c' hc' => hs.apart c' (hsub c' hc'), hs.effect, hs.noEffect, hs.recorded, hs.once,
    fun c' hc' => hs.numbered.1 c' (hsub c' hc'), hs.numbered.2⟩

/-- Others may change any table but the ledger. -/
theorem sound_others (hs : Sound rules s) {stored : Database}
    (hledger : stored.ledger = s.stored.ledger) : Sound rules { s with stored } := by
  constructor
  case idle => exact hs.idle
  case onTrack => exact hs.onTrack
  case apart =>
    intro c hc row hrow
    exact hs.apart c hc row (hledger ▸ hrow)
  case effect => exact hs.effect
  case noEffect => exact hs.noEffect
  case recorded =>
    intro e he outcome hresult hfaithful
    refine isRecorded_of_subset (hs.recorded e he outcome hresult hfaithful) fun row hrow => ?_
    rw [hledger]
    exact hrow
  case once => exact hs.once
  case numbered => exact hs.numbered

section part

variable (hs : Sound rules s) (hc : s.running = before ++ c :: after) {t u : Session}
  (ht : Awakened c.session t) (hstored : t.stored = s.stored) {r : Except Failure Unit}
  (hr : IsWake r)

include hs hc ht hstored hr

/-- A call may go on until it waits. -/
theorem sound_waits {next : Except Failure Unit → Work HandleOutcome}
    (hpart : (c.next r).part t = (.waits next, u)) :
    Sound rules (proceed s before after c (.waits next, u)) := by
  obtain ⟨hsame, htrack⟩ := onTrack_of_waits hs hc ht hstored hr hpart
  have hmem : c ∈ s.running := by simp [hc]
  -- every call but this one is as it was
  have hcases : ∀ c' ∈ before ++ ⟨c.went s.stored u.stored, next, u⟩ :: after,
      c' ∈ s.running ∨ c' = ⟨c.went s.stored u.stored, next, u⟩ :=
    fun _ => mem_of_mem_replace hc
  constructor
  case idle =>
    intro c' hc'
    rcases hcases c' hc' with hc' | rfl
    · exact hs.idle c' hc'
    · simp [hsame, hs.idle c hmem]
  case onTrack =>
    intro c' hc'
    rcases hcases c' hc' with hc' | rfl
    · exact hs.onTrack c' hc'
    · exact htrack
  case apart =>
    intro c' hc' row hrow hnew
    change row ∈ u.stored.ledger at hrow
    rcases hcases c' hc' with hc' | rfl
    · rw [hsame] at hrow
      exact hs.apart c' hc' row hrow hnew
    · exact absurd hrow hnew
  case effect => exact hs.effect
  case noEffect => exact hs.noEffect
  case recorded =>
    change ∀ e ∈ s.ended, ∀ outcome, e.result = .ok outcome → _ →
      u.stored.isRecorded e.delivery.eventKey = true
    rw [hsame]
    exact hs.recorded
  case once => exact hs.once
  case numbered =>
    constructor
    · intro c' hc'
      rcases hcases c' hc' with hc' | rfl
      · exact hs.numbered.1 c' hc'
      · exact hs.numbered.1 c hmem
    · exact hs.numbered.2

/-- A call that ends with success has its effect, and records it. -/
theorem hasEffect_of_processed (hpart : (c.next r).part t = (.ended (.ok .processed), u)) :
    (c.went s.stored u.stored).HasEffect ∧
      ∃ row, row.eventKey = c.delivery.eventKey ∧ u.stored.ledger = s.stored.ledger ++ [row] ∧
        ∀ q ∈ s.stored.ledger, q.eventKey ≠ c.delivery.eventKey := by
  have hmem : c ∈ s.running := by simp [hc]
  have hcommits : Commits (c.went s.stored u.stored).Saw _ _ s.stored u.stored :=
    concluded_of_ended hs hc ht hstored hr hpart
  exact ⟨⟨s.stored, u.stored, c.parts, rfl, hs.idle c hmem, hcommits⟩, hcommits.ledger⟩

/-- A call that ends in another way has stored nothing. -/
theorem stored_of_not_processed {result : Except Failure HandleOutcome}
    (hpart : (c.next r).part t = (.ended result, u)) (hresult : result ≠ .ok .processed) :
    u.stored = s.stored := by
  have hconcluded := concluded_of_ended hs hc ht hstored hr hpart
  rcases result with e | _ | _
  · exact hconcluded
  · exact absurd rfl hresult
  · exact hconcluded.1

/-- Where a call ends, the ledger has at most one row more, and that has the key of the call. -/
theorem mem_ledger_of_ended {result : Except Failure HandleOutcome}
    (hpart : (c.next r).part t = (.ended result, u)) :
    (∀ row ∈ s.stored.ledger, row ∈ u.stored.ledger) ∧
      ∀ outcome, result = .ok outcome → (outcome = .alreadyProcessed → Faithful rules) →
        u.stored.isRecorded c.delivery.eventKey = true := by
  by_cases hresult : result = .ok .processed
  · subst hresult
    obtain ⟨-, row, hkey, hledger, -⟩ := hasEffect_of_processed hs hc ht hstored hr hpart
    rw [Database.isRecorded, hledger]
    constructor
    · exact fun row' hrow' => List.mem_append_left _ hrow'
    · intro _ _ _
      exact List.any_eq_true.mpr ⟨row, by simp, by simp [hkey]⟩
  · have hsame := stored_of_not_processed hs hc ht hstored hr hpart hresult
    rw [hsame]
    refine ⟨fun _ h => h, fun outcome houtcome hfaithful => ?_⟩
    subst houtcome
    have hconcluded := concluded_of_ended hs hc ht hstored hr hpart
    cases outcome with
    | processed => exact absurd rfl hresult
    | alreadyProcessed => exact hconcluded.2 (hfaithful rfl)

/-- A call may go on until it ends, where no other one blocks its key. -/
theorem sound_ended {result : Except Failure HandleOutcome}
    (hpart : (c.next r).part t = (.ended result, u))
    (hfree : Unblocked (before ++ after) s.stored u.stored) :
    Sound rules (proceed s before after c (.ended result, u)) := by
  have hmem : c ∈ s.running := by simp [hc]
  have hsub : ∀ c' ∈ before ++ after, c' ∈ s.running := fun _ => mem_of_mem_remove hc
  obtain ⟨hledger, hrecorded⟩ := mem_ledger_of_ended hs hc ht hstored hr hpart
  constructor
  case idle => exact fun c' hc' => hs.idle c' (hsub c' hc')
  case onTrack => exact fun c' hc' => hs.onTrack c' (hsub c' hc')
  case apart =>
    intro c' hc' row hrow hnew
    by_cases hold : row ∈ s.stored.ledger
    · exact hs.apart c' (hsub c' hc') row hold hnew
    · exact hfree c' hc' row hrow hold
  case effect =>
    intro e he hresult
    rcases List.mem_cons.mp he with rfl | he
    · subst hresult
      exact (hasEffect_of_processed hs hc ht hstored hr hpart).1
    · exact hs.effect e he hresult
  case noEffect =>
    intro e he hresult
    rcases List.mem_cons.mp he with rfl | he
    · have hsame := stored_of_not_processed hs hc ht hstored hr hpart hresult
      simp [hsame, hs.idle c hmem]
    · exact hs.noEffect e he hresult
  case recorded =>
    intro e he outcome hresult hfaithful
    rcases List.mem_cons.mp he with rfl | he
    · exact hrecorded outcome hresult hfaithful
    · exact isRecorded_of_subset (hs.recorded e he outcome hresult hfaithful) hledger
  case once =>
    refine List.pairwise_cons.mpr ⟨fun e he hresult hprocessed hkey => ?_, hs.once⟩
    -- the key was recorded when the other call ended, so it is not new
    subst hresult
    obtain ⟨-, -, -, -, hfresh⟩ := hasEffect_of_processed hs hc ht hstored hr hpart
    have hold := hs.recorded e he _ hprocessed nofun
    obtain ⟨row, hrow, hsame⟩ := List.any_eq_true.mp hold
    exact hfresh row hrow ((of_decide_eq_true hsame).trans hkey.symm)
  case numbered =>
    constructor
    · exact fun c' hc' => hs.numbered.1 c' (hsub c' hc')
    · intro e he
      rcases List.mem_cons.mp he with rfl | he
      · exact hs.numbered.1 c hmem
      · exact hs.numbered.2 e he

end part

/-- Every step preserves what runs preserve. -/
theorem sound_step (hs : Sound rules s) (hstep : Step rules s s') : Sound rules s' := by
  cases hstep with
  | begin legacy d session hstored hstaged hscript =>
    exact sound_begin hs legacy d hstored hstaged hscript
  | @proceed before after c hc t ht hstored r hr hfree =>
    rcases hpart : (c.next r).part t with ⟨result | next, u⟩
    · rw [hpart] at hfree
      exact sound_ended hs hc ht hstored hr hpart hfree
    · exact sound_waits hs hc ht hstored hr hpart
  | die hc => exact sound_die hs hc
  | others hledger => exact sound_others hs hledger

/-- It holds in every state of a run. -/
theorem sound_of_reachable (h : Reachable rules s) : Sound rules s := by
  induction h with
  | start stored =>
    exact ⟨by simp, by simp, by simp, by simp, by simp, by simp, .nil, by simp, by simp⟩
  | step _ hstep ih => exact sound_step ih hstep

/-- What is stored after a part of a call is what the part has stored. -/
@[simp] theorem stored_proceed (s : Handlers) (before after : List Running) (c : Running)
    (part : Stop HandleOutcome × Session) :
    (proceed s before after c part).stored = part.2.stored := by
  unfold proceed
  rcases part.1 with _ | _ <;> rfl

/-- What is recorded stays recorded. -/
theorem isRecorded_step (hs : Sound rules s) (hstep : Step rules s s') {key : String}
    (h : s.stored.isRecorded key = true) : s'.stored.isRecorded key = true := by
  cases hstep with
  | begin legacy d session hstored hstaged hscript => exact h
  | @proceed before after c hc t ht hstored r hr hfree =>
    refine isRecorded_of_subset h fun row hrow => ?_
    rw [stored_proceed]
    rcases hpart : (c.next r).part t with ⟨result | next, u⟩
    · exact (mem_ledger_of_ended hs hc ht hstored hr hpart).1 row hrow
    · change row ∈ u.stored.ledger
      rw [(onTrack_of_waits hs hc ht hstored hr hpart).1]
      exact hrow
  | die hc => exact h
  | others hledger => exact isRecorded_of_subset h fun row hrow => hledger ▸ hrow

/-! ## Calls by number -/

/-- There has been a call of that number, and it handles that delivery. -/
def Handles (s : Handlers) (number : Nat) (d : Delivery) : Prop :=
  number < s.count ∧ (∀ c ∈ s.running, c.number = number → c.delivery = d) ∧
    ∀ e ∈ s.ended, e.number = number → e.delivery = d

/-- A call that begins has the next number. -/
theorem handles_begin (hs : Sound rules s) (legacy : Bool) (d : Delivery) (session : Session) :
    Handles (begin s legacy d session) s.count d := by
  refine ⟨Nat.lt_succ_self _, fun c hc hnumber => ?_, fun e he hnumber => ?_⟩
  · rcases List.mem_append.mp hc with hc | hc
    · exact absurd hnumber (Nat.ne_of_lt (hs.numbered.1 c hc))
    · rw [List.mem_singleton.mp hc]
  · exact absurd hnumber (Nat.ne_of_lt (hs.numbered.2 e he))

/-- A call handles one delivery all the time. -/
theorem handles_step (hstep : Step rules s s') {number : Nat} {d : Delivery}
    (h : Handles s number d) : Handles s' number d := by
  obtain ⟨hlt, hrunning, hended⟩ := h
  cases hstep with
  | begin legacy d' session hstored hstaged hscript =>
    refine ⟨Nat.lt_succ_of_lt hlt, fun c hc hnumber => ?_, hended⟩
    rcases List.mem_append.mp hc with hc | hc
    · exact hrunning c hc hnumber
    · rw [List.mem_singleton.mp hc] at hnumber
      exact absurd hnumber.symm (Nat.ne_of_lt hlt)
  | @proceed before after c hc t ht hstored r hr hfree =>
    have hmem : c ∈ s.running := by simp [hc]
    rcases hpart : (c.next r).part t with ⟨result | next, u⟩
    · refine ⟨hlt, fun c' hc' => hrunning c' (mem_of_mem_remove hc hc'), fun e he hnumber => ?_⟩
      rcases List.mem_cons.mp he with rfl | he
      · exact hrunning c hmem hnumber
      · exact hended e he hnumber
    · refine ⟨hlt, fun c' hc' hnumber => ?_, hended⟩
      rcases mem_of_mem_replace hc hc' with hc' | rfl
      · exact hrunning c' hc' hnumber
      · exact hrunning c hmem hnumber
  | die hc => exact ⟨hlt, fun c' hc' => hrunning c' (mem_of_mem_remove hc hc'), hended⟩
  | others hledger => exact ⟨hlt, hrunning, hended⟩

/-! ## One effect for each key -/

/-- Whether a call was answered with success, for that key. -/
def Ended.hasProcessed (key : String) (e : Ended) : Bool :=
  match e.result with
  | .ok .processed => e.delivery.eventKey = key
  | _ => false

/-- The calls that were answered with success for a key. -/
theorem Ended.hasProcessed_iff {key : String} {e : Ended} :
    e.hasProcessed key = true ↔ e.result = .ok .processed ∧ e.delivery.eventKey = key := by
  unfold Ended.hasProcessed
  rcases e.result with _ | _ | _ <;> simp

/-- At most one call of a sound run was answered with success for a key. -/
theorem countP_hasProcessed (hs : Sound rules s) (key : String) :
    s.ended.countP (·.hasProcessed key) ≤ 1 := by
  have hpair := hs.once.filter (·.hasProcessed key)
  have hall : ∀ e ∈ s.ended.filter (·.hasProcessed key),
      e.result = .ok .processed ∧ e.delivery.eventKey = key := by
    intro e he
    exact Ended.hasProcessed_iff.mp (List.mem_filter.mp he).2
  rw [List.countP_eq_length_filter]
  rcases hended : s.ended.filter (·.hasProcessed key) with _ | ⟨e, _ | ⟨e', rest⟩⟩
  · simp [hended]
  · simp [hended]
  · rw [hended] at hpair hall
    obtain ⟨hresult, hkey⟩ := hall e (by simp)
    obtain ⟨hresult', hkey'⟩ := hall e' (by simp)
    have hne := (List.pairwise_cons.mp hpair).1 e' (by simp) hresult hresult'
    exact absurd (hkey.trans hkey'.symm) hne

/-- A redelivery changes nothing. -/
theorem leavesAlone_of_redelivery (hs : Sound rules s) {e e' : Ended} (he : e ∈ s.ended)
    (he' : e' ∈ s.ended) (hresult : e.result = .ok .processed)
    (hkey : e'.delivery.eventKey = e.delivery.eventKey) : e' = e ∨ e'.LeavesAlone := by
  by_cases hresult' : e'.result = .ok .processed
  · left
    by_contra hne
    have hsymm : Std.Symm fun e e' : Ended => e.result = .ok .processed →
        e'.result = .ok .processed → e.delivery.eventKey ≠ e'.delivery.eventKey :=
      ⟨fun _ _ h h₁ h₂ hkey => h h₂ h₁ hkey.symm⟩
    exact hs.once.forall he' he hne hresult' hresult hkey
  · exact .inr (hs.noEffect e' he' hresult')

/-- For each key at most one call is answered with success.  It has stored its whole effect together
with one row of the ledger; every other call, and every call still under way, has stored nothing.
So whatever is delivered again has no effect. -/
theorem one_effect_per_key (h : Reachable rules s) :
    (∀ key, s.ended.countP (·.hasProcessed key) ≤ 1) ∧
    (∀ e ∈ s.ended, e.result = .ok .processed → e.HasEffect) ∧
    (∀ e ∈ s.ended, e.result ≠ .ok .processed → e.LeavesAlone) ∧
    (∀ c ∈ s.running, c.LeavesAlone) ∧
    (∀ e ∈ s.ended, ∀ e' ∈ s.ended, e.result = .ok .processed →
      e'.delivery.eventKey = e.delivery.eventKey → e' = e ∨ e'.LeavesAlone) := by
  have hs := sound_of_reachable h
  exact ⟨countP_hasProcessed hs, hs.effect, hs.noEffect, hs.idle,
    fun e he e' he' => leavesAlone_of_redelivery hs he he'⟩

/-! ## A run -/

/-- A session that has just been opened. -/
def opened (stored : Database) (script : DbScript) : Session where
  now := .origin
  stored := stored
  staged := stored
  begun := false
  script := script
  cache := .fresh ⟨0, 1, ⟨0, 0⟩, false⟩ ⟨"", 1, 0⟩
  tally := []
  notices := []

/-- The session of a call that goes on, with the tables as they are stored then. -/
def Running.awake (c : Running) (stored : Database) : Session :=
  { c.session with stored, staged := c.session.stored.rebase c.session.staged stored }

/-- Lets the last call go on. -/
def goOn (s : Handlers) : Handlers :=
  match s.running.reverse with
  | [] => s
  | c :: rest => proceed s rest.reverse [] c ((c.next (.ok ())).part (c.awake s.stored))

instance (others : List Running) (before after : Database) :
    Decidable (Unblocked others before after) :=
  inferInstanceAs (Decidable (∀ c ∈ others, ∀ row ∈ after.ledger, row ∉ before.ledger →
    row.eventKey ∉ c.session.pendingKeys))

/-- The last call may go on where no other one blocks it. -/
theorem step_goOn (hrunning : s.running ≠ [])
    (hfree : Unblocked s.running.dropLast s.stored (goOn s).stored) : Step rules s (goOn s) := by
  unfold goOn at hfree ⊢
  rcases hreverse : s.running.reverse with _ | ⟨c, rest⟩
  · exact absurd (List.reverse_eq_nil_iff.mp hreverse) hrunning
  · have hc : s.running = rest.reverse ++ [c] := by
      simpa using congrArg List.reverse hreverse
    rw [hreverse, hc] at hfree
    refine .proceed s hc (t := c.awake s.stored) ⟨rfl, rfl, rfl⟩ rfl (r := .ok ()) nofun ?_
    simpa using hfree

/-- A delivery that asks to remove the tasks of a user. -/
def deletion : Delivery := ⟨"user-events", 0, "1-0", "user.deleted (7)", none, []⟩

/-- A script by which a call waits before it records its delivery. -/
def slowRecord : DbScript := fun op => if op = .ledgerAdd then [⟨1, .through⟩] else []

/-- A task of a user. -/
def taskOf (id user : Int) : Task := ⟨id, user, "task", none, "TODO", .origin, .origin⟩

/-- The tables before the run: a task of the user and one of another. -/
def twoTasks : Database := { Database.empty with tasks := [taskOf 1 7, taskOf 2 8] }

/-- A record that takes time is a fair outcome. -/
theorem slowRecord_within : slowRecord.Within Rules.fair.allowed := by
  intro op o ho
  unfold slowRecord at ho
  split at ho
  · rw [List.mem_singleton.mp ho]
    intro a
    exact nofun
  · simp at ho

/-- Two calls with one delivery.  The first one waits before it records it, and meanwhile the second
one is done. -/
def racing : Handlers :=
  let s := goOn (begin ⟨twoTasks, [], [], 0⟩ true deletion (opened twoTasks slowRecord))
  goOn (begin s true deletion (opened twoTasks .none))

/-- Then the user gets a new task. -/
def refilled : Handlers :=
  let s := goOn racing
  { s with stored := { s.stored with tasks := s.stored.tasks ++ [taskOf 3 7] } }

/-- Then the delivery comes again. -/
def redelivered : Handlers := goOn (begin refilled true deletion (opened refilled.stored .none))

/-- The run of the redelivered deletion is one. -/
theorem reachable_redelivered : Reachable .fair redelivered := by
  have hone := Reachable.step (Reachable.start twoTasks)
    (.begin _ true deletion (opened twoTasks slowRecord) rfl rfl slowRecord_within)
  have hwait := Reachable.step hone (step_goOn (by decide +kernel) (by decide +kernel))
  have htwo := Reachable.step hwait
    (.begin _ true deletion (opened twoTasks .none) (by decide +kernel) rfl DbScript.within_none)
  have hrace : Reachable .fair racing :=
    .step htwo (step_goOn (by decide +kernel) (by decide +kernel))
  have hrefill : Reachable .fair refilled :=
    .step (.step hrace (step_goOn (by decide +kernel) (by decide +kernel))) (.others _ rfl)
  have hthree := Reachable.step hrefill
    (.begin _ true deletion (opened refilled.stored .none) rfl rfl DbScript.within_none)
  exact .step hthree (step_goOn (by decide +kernel) (by decide +kernel))

/-- The second call has the effect. The first one, which looked before that, and the one after the
redelivery have none: the new task of the user stays. -/
theorem one_effect_per_key_of_redelivered :
    Reachable .fair redelivered ∧
      redelivered.ended.map (·.hasProcessed deletion.eventKey) = [false, false, true] ∧
      redelivered.stored.tasks = [taskOf 2 8, taskOf 3 7] ∧
      ∀ key, redelivered.ended.countP (·.hasProcessed key) ≤ 1 :=
  ⟨reachable_redelivered, by decide +kernel, by decide +kernel,
    (one_effect_per_key reachable_redelivered).1⟩

end Handler

end EventRelay
