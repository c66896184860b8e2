import EventRelay.Proofs.Lists
import EventRelay.Proofs.Publisher.Run
import Mathlib.Data.Set.Basic

/-!
# Runs that can be computed

Steps of publishers as data.  A move names the step and the tick and the send that take part;
`play` carries it out if it is possible, so that a run can be written down as a list of moves and
evaluated.

* `step_of_play`: what a move comes to is a step.
* `steps_of_plays`, `reachable_of_plays`: what a list of moves comes to is some steps further, and
  can be reached.
-/

namespace EventRelay

namespace Publisher

open Relay

/-- A step, with the places of the tick and the send that take part. -/
inductive Move where
  /-- An event of that topic, content and key is appended. -/
  | append (topic payload : String) (key : Option String)
  /-- A tick starts. -/
  | claim (cfg : PublisherConfig) (sends : List (Outcome String))
  /-- A send is over. -/
  | land (tick flight : Nat)
  /-- The next outcome of a tick is recorded. -/
  | record (tick : Nat)
  /-- A tick ends or dies. -/
  | leave (tick : Nat)
  /-- A cleanup runs. -/
  | clean (cfg : PublisherConfig)
  /-- A span passes. -/
  | pass (span : Span)

/-- A desk in an empty room. -/
def emptyDesk : Session where
  now := .origin
  stored := .empty
  staged := .empty
  begun := false
  script := .none
  cache := .fresh ⟨0, 1, ⟨0, 0⟩, false⟩ ⟨"", 1, 0⟩
  tally := []
  notices := []

/-- The settings that a move uses are among these. -/
def Move.Uses (pubs : Set PublisherConfig) : Move → Prop
  | .claim cfg sends => cfg ∈ pubs ∧ FairSends sends
  | .clean cfg => cfg ∈ pubs
  | _ => True

/-- Whether a tick has nothing to do before an instant. -/
def waits (later : Instant) (t : Tick) : Bool := (nextDue? t.flights).any (later ≤ ·)

/-- Carries a move out, if it is possible. -/
def play (b : Broker) (s : Relay) : Move → Option Relay
  | .append topic payload key => some (s.append "event" topic payload key s.now)
  | .claim cfg sends => some (s.claim cfg b .none sends)
  | .land i j =>
    match s.ticks[i]? with
    | none => none
    | some t =>
      match t.flights[j]? with
      | some (.airborne row due ending) =>
        if due.isDue s.now then
          some ((s.deliverIf b t row ending).withTicks (s.ticks.take i ++
            { t with
              flights := t.flights.take j ++
                .landed row (finishSend b s.now row ending s.streams).1 ::
                t.flights.drop (j + 1) } ::
            s.ticks.drop (i + 1)))
        else none
      | _ => none
  | .record i =>
    match s.ticks[i]? with
    | none => none
    | some t =>
      match nextDue? t.flights, t.flights with
      | none, .landed row result :: rest =>
        let r := s.transact .none (reconcile t.cfg row result)
        some (r.2.withTicks (s.ticks.take i ++ (match r.1 with
          | .ok _ => [{ t with flights := rest }]
          | .error _ => []) ++ s.ticks.drop (i + 1)))
      | _, _ => none
  | .leave i =>
    if i < s.ticks.length then some (s.withTicks (s.ticks.take i ++ s.ticks.drop (i + 1)))
    else none
  | .clean cfg => some (s.transact .none (cleanup cfg)).2
  | .pass span =>
    if 0 ≤ span ∧ s.ticks.all (waits (s.now + span)) then some (s.waitUntil (s.now + span))
    else none

/-- Carries moves out one after another. -/
def plays (b : Broker) (s : Relay) : List Move → Option Relay
  | [] => some s
  | m :: ms => (play b s m).bind fun s => plays b s ms

variable {pubs : Set PublisherConfig} {b : Broker} {s s' : Relay}

/-- A script without outcomes is a fair one. -/
theorem fairScript_none : FairScript .none := DbScript.within_none

/-- A tick that is seen to wait does wait. -/
theorem waitsUntil_of_waits {later : Instant} {t : Tick} (h : waits later t = true) :
    t.waitsUntil later := by
  unfold waits at h
  rcases hnext : nextDue? t.flights with _ | due
  · rw [hnext] at h
    cases h
  · rw [hnext] at h
    exact ⟨due, hnext, by simpa using h⟩

/-- What a move comes to is a step. -/
theorem step_of_play {m : Move} (hm : m.Uses pubs) (h : play b s m = some s') :
    Step pubs b s s' := by
  cases m with
  | append topic payload key =>
    cases h
    exact .append s _ _ _ _ _
  | claim cfg sends =>
    cases h
    exact .claim s hm.1 fairScript_none hm.2
  | land i j =>
    unfold play at h
    rcases ht : s.ticks[i]? with _ | t
    · simp [ht] at h
    rcases hf : t.flights[j]? with _ | ⟨row, due, ending⟩ | ⟨row, result⟩
    · simp [ht, hf] at h
    · by_cases hdue : due.isDue s.now
      · simp only [ht, hf, hdue, if_true] at h
        cases h
        exact .land s (eq_take_cons_drop ht) (eq_take_cons_drop hf) hdue
      · simp [ht, hf, hdue] at h
    · simp [ht, hf] at h
  | record i =>
    unfold play at h
    rcases ht : s.ticks[i]? with _ | t
    · simp [ht] at h
    simp only [ht] at h
    split at h
    · rename_i hover hf
      cases h
      exact .record s (eq_take_cons_drop ht) hover hf fairScript_none
    · cases h
  | leave i =>
    simp only [play] at h
    by_cases hi : i < s.ticks.length
    · rw [if_pos hi] at h
      cases h
      exact .leave s (eq_take_cons_drop (List.getElem?_eq_getElem hi))
    · rw [if_neg hi] at h
      cases h
  | clean cfg =>
    cases h
    exact .clean s hm fairScript_none
  | pass span =>
    simp only [play] at h
    by_cases hwait : 0 ≤ span ∧ s.ticks.all (waits (s.now + span))
    · rw [if_pos hwait] at h
      cases h
      refine .pass s (Int.le_add_of_nonneg_right hwait.1) fun t ht => ?_
      exact waitsUntil_of_waits (List.all_eq_true.mp hwait.2 t ht)
    · rw [if_neg hwait] at h
      cases h

/-- What moves come to is some steps further. -/
theorem steps_of_plays {ms : List Move} (hms : ∀ m ∈ ms, m.Uses pubs)
    (h : plays b s ms = some s') : Relation.ReflTransGen (Step pubs b) s s' := by
  induction ms generalizing s with
  | nil =>
    cases h
    exact .refl
  | cons m ms ih =>
    unfold plays at h
    obtain ⟨u, hplay, hrest⟩ := Option.bind_eq_some_iff.mp h
    exact .head (step_of_play (hms m List.mem_cons_self) hplay)
      (ih (fun m hm => hms m (List.mem_cons_of_mem _ hm)) hrest)

/-- What moves come to can be reached. -/
theorem reachable_of_plays {ms : List Move} (hms : ∀ m ∈ ms, m.Uses pubs)
    (hs : Reachable pubs b s) (h : plays b s ms = some s') : Reachable pubs b s' :=
  reachable_of_steps hs (steps_of_plays hms h)

end Publisher

end EventRelay
