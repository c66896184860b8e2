import EventRelay.Proofs.Existence.Run

/-!
# Runs of existence checks that can be computed

Steps of the calls of a cache as data.  A move names the step and the place of the call that takes
part; `play` carries it out if it is possible.

* `step_of_play`: what a move comes to is a step.
* `reachable_of_plays`: what a list of moves comes to can be reached, if all its steps are allowed.
-/

namespace EventRelay

namespace Existence

/-- A step, with the place of the call that takes part. -/
inductive Move where
  /-- A call about a user starts. -/
  | consult (user : Int)
  /-- The attempt of a call comes to this outcome. -/
  | settle (call : Nat) (outcome : Except Failure Bool)
  /-- A call goes on after a wait. -/
  | resume (call : Nat)
  /-- A call is cancelled in a wait. -/
  | cancel (call : Nat)
  /-- Entries are dropped. -/
  | evict (who : Option Int)
  /-- A span passes. -/
  | pass (span : Span)

/-- Carries a move out, if it is possible. -/
def play (s : Inquiries) : Move → Option Inquiries
  | .consult user => some (s.consult user)
  | .settle i outcome =>
    match s.calls[i]? with
    | none => none
    | some c =>
      if c.resting = false then some (s.settle (s.calls.take i) (s.calls.drop (i + 1)) c outcome)
      else none
  | .resume i =>
    match s.calls[i]? with
    | none => none
    | some c =>
      if c.resting = true then some (s.resume (s.calls.take i) (s.calls.drop (i + 1)) c) else none
  | .cancel i =>
    match s.calls[i]? with
    | none => none
    | some c =>
      if c.resting = true then
        some (s.cancel (s.calls.take i) (s.calls.drop (i + 1)) c (.cancelled ""))
      else none
  | .evict who => some (s.evict who)
  | .pass span => if 0 ≤ span then some (s.waitUntil (s.now + span)) else none

/-- Carries moves out one after another, as far as their steps are allowed. -/
def plays (allowed : Inquiries → Inquiries → Prop) [DecidableRel allowed] (s : Inquiries) :
    List Move → Option Inquiries
  | [] => some s
  | m :: ms =>
    (play s m).bind fun s' => if allowed s s' then plays allowed s' ms else none

instance : DecidableRel Anything := fun _ _ => isTrue trivial

variable {s s' : Inquiries}

/-- What a move comes to is a step. -/
theorem step_of_play {m : Move} (h : play s m = some s') : Step s s' := by
  cases m with
  | consult user =>
    cases h
    exact .consult s user
  | settle i outcome =>
    unfold play at h
    rcases hc : s.calls[i]? with _ | c
    · simp [hc] at h
    · simp only [hc] at h
      split at h
      · rename_i hasking
        cases h
        exact .settle s (eq_take_cons_drop hc) hasking outcome
      · cases h
  | resume i =>
    unfold play at h
    rcases hc : s.calls[i]? with _ | c
    · simp [hc] at h
    · simp only [hc] at h
      split at h
      · rename_i hresting
        cases h
        exact .resume s (eq_take_cons_drop hc) hresting
      · cases h
  | cancel i =>
    unfold play at h
    rcases hc : s.calls[i]? with _ | c
    · simp [hc] at h
    · simp only [hc] at h
      split at h
      · rename_i hresting
        cases h
        exact .cancel s (eq_take_cons_drop hc) hresting rfl
      · cases h
  | evict who =>
    cases h
    exact .evict s who
  | pass span =>
    simp only [play] at h
    by_cases hspan : 0 ≤ span
    · rw [if_pos hspan] at h
      cases h
      exact .pass s (Int.le_add_of_nonneg_right hspan)
    · rw [if_neg hspan] at h
      cases h

/-- What allowed moves come to can be reached. -/
theorem reachable_of_plays {policy : CachePolicy} {circuit : BreakerConfig Span}
    {allowed : Inquiries → Inquiries → Prop} [DecidableRel allowed] {ms : List Move}
    (hs : Reachable policy circuit allowed s) (h : plays allowed s ms = some s') :
    Reachable policy circuit allowed s' := by
  induction ms generalizing s with
  | nil =>
    cases h
    exact hs
  | cons m ms ih =>
    obtain ⟨u, hu, hrest⟩ := Option.bind_eq_some_iff.mp h
    split at hrest
    · rename_i hallowed
      exact ih (.step hs (step_of_play hu) hallowed) hrest
    · cases hrest

/-! ## Settings for runs -/

/-- A cache that trusts its entries for five minutes and asks once. -/
def askingOnce : CachePolicy where
  ttl := .ofSeconds 300
  attempts := 1
  backoff := ⟨0, 1⟩
  failOpen := true

/-- A breaker that opens with the first failure, for half a minute. -/
def tripsAtOnce : BreakerConfig Span where
  name := "users"
  threshold := 1
  recovery := .ofSeconds 30

end Existence

end EventRelay
