import EventRelay.Proofs.Deployment.Run
import EventRelay.Proofs.Publisher.Play

/-!
# Runs of a deployment that can be computed

Steps of a deployment as data.  A move names the step and the places of the request or the entry that
take part; `play` carries it out if it is possible.

* `step_of_play`: what a move comes to is a step.
* `reachable_of_plays`: what a list of moves comes to can be reached.
-/

namespace EventRelay

namespace Deployment

open Service

/-- A step, with the places of the request or the entry that take part. -/
inductive Move where
  /-- Something happens among publishers. -/
  | relay (m : Publisher.Move)
  /-- A service is called, for anything but a new task. -/
  | call (c : Call)
  /-- A caller wants a task of that title for a user. -/
  | ask (user : Int) (title : String)
  /-- An attempt to ask for the owner of a request comes to this outcome. -/
  | settle (request : Nat) (outcome : Except Failure Bool)
  /-- The remote side is asked again for a request. -/
  | resume (request : Nat)
  /-- The task of a request is created, if the answer was good. -/
  | create (request : Nat)
  /-- An entry of the user events is handled. -/
  | handle (partition : Int) (entry : Nat)

/-- The settings of publishers that a move uses are those of the deployment. -/
def Move.Uses (p : Deployment) : Move → Prop
  | .relay m => m.Uses p.pubs
  | _ => True

/-- Whether a call is not for a new task. -/
def isPlain : Call → Bool
  | .createTask _ _ _ _ => false
  | _ => true

/-- Runs a call, if the clock shows a date and identifiers have 64 bits. -/
def serveInRange (p : Deployment) (w : Site) (c : Call) : Option Site :=
  if Visit.isInRange p.topics ⟨c, { w.relay.desk with script := .none }⟩ then
    some (w.serve p.topics c .none)
  else none

/-- Carries a move out, if it is possible. -/
def play (p : Deployment) (w : Site) : Move → Option Site
  | .relay m => (Publisher.play p.broker w.relay m).map fun r => { w with relay := r }
  | .call c => if isPlain c then serveInRange p w c else none
  | .ask user title => some (w.ask user title none)
  | .settle i outcome =>
    match w.requests[i]? with
    | none => none
    | some q =>
      match q.stage with
      | .asking attempt =>
        some (w.settle (w.requests.take i) (w.requests.drop (i + 1)) q attempt outcome)
      | _ => none
  | .resume i =>
    match w.requests[i]? with
    | none => none
    | some q =>
      match q.stage with
      | .resting attempt =>
        some (w.withRequests (w.requests.take i ++
          { q with stage := .asking (attempt + 1) } :: w.requests.drop (i + 1)))
      | _ => none
  | .create i =>
    match w.requests[i]? with
    | none => none
    | some q =>
      match q.stage with
      | .answered result =>
        serveInRange p (w.withRequests (w.requests.take i ++ w.requests.drop (i + 1)))
          (.createTask result q.user q.title q.description)
      | _ => none
  | .handle partition i =>
    match (w.relay.streams.entriesOf (streamName p.topics.users partition))[i]? with
    | none => none
    | some e => some (w.handle p.legacy (p.delivery partition e) .none)

/-- Carries moves out one after another. -/
def plays (p : Deployment) (w : Site) : List Move → Option Site
  | [] => some w
  | m :: ms => (play p w m).bind fun w => plays p w ms

variable {p : Deployment} {w w' : Site}

/-- A call that is in range is a sound one, and is served. -/
theorem serve_of_serveInRange {c : Call} (h : serveInRange p w c = some w') :
    Visit.IsSound p.topics ⟨c, { w.relay.desk with script := .none }⟩ ∧
      w' = w.serve p.topics c .none := by
  unfold serveInRange at h
  split at h
  · rename_i hrange
    exact ⟨isSound_of_isInRange DbScript.within_none hrange, (Option.some.inj h).symm⟩
  · cases h

/-- What a move comes to is a step. -/
theorem step_of_play {m : Move} (hm : m.Uses p) (h : play p w m = some w') : Step p w w' := by
  cases m with
  | relay m =>
    obtain ⟨r, hr, rfl⟩ := Option.map_eq_some_iff.mp h
    exact .relay w (Publisher.step_of_play hm hr)
  | call c =>
    simp only [play] at h
    split at h
    · rename_i hplain
      obtain ⟨hsound, rfl⟩ := serve_of_serveInRange h
      refine .call w ?_ hsound
      rintro owner user title description rfl
      cases hplain
    · cases h
  | ask user title =>
    cases h
    exact .ask w user title none
  | settle i outcome =>
    simp only [play] at h
    split at h
    · cases h
    · rename_i q hq
      split at h
      · rename_i attempt hasking
        cases h
        exact .settle w (eq_take_cons_drop hq) hasking outcome
      · cases h
  | resume i =>
    simp only [play] at h
    split at h
    · cases h
    · rename_i q hq
      split at h
      · rename_i attempt hresting
        cases h
        exact .resume w (eq_take_cons_drop hq) hresting
      · cases h
  | create i =>
    simp only [play] at h
    split at h
    · cases h
    · rename_i q hq
      split at h
      · rename_i result hanswered
        obtain ⟨hsound, rfl⟩ := serve_of_serveInRange h
        exact .create w (eq_take_cons_drop hq) hanswered hsound
      · cases h
  | handle partition i =>
    simp only [play] at h
    split at h
    · cases h
    · rename_i e he
      cases h
      exact .handle w (List.mem_of_getElem? he) DbScript.within_none

/-- What moves come to can be reached. -/
theorem reachable_of_plays {ms : List Move} (hms : ∀ m ∈ ms, m.Uses p) (hw : Reachable p w)
    (h : plays p w ms = some w') : Reachable p w' := by
  induction ms generalizing w with
  | nil =>
    cases h
    exact hw
  | cons m ms ih =>
    unfold plays at h
    obtain ⟨v, hplay, hrest⟩ := Option.bind_eq_some_iff.mp h
    exact ih (fun m hm => hms m (List.mem_cons_of_mem _ hm))
      (.step hw (step_of_play (hms m List.mem_cons_self) hplay)) hrest

end Deployment

end EventRelay
