import EventRelay.Proofs.Reclaim.Run

/-!
# Loops that can be computed

What happens around a consumer as data.  `play` carries out what is possible, with the events that
tell of it; what is not possible changes nothing.

* `run_play`: what is carried out is a run.
* `run_of_plays`: so is a list of it.
-/

namespace EventRelay

namespace Loop

/-- Something that may happen. -/
inductive Deed where
  /-- The clock comes to an instant. -/
  | pass (later : Instant)
  /-- The request of the consumer is served. -/
  | serve
  /-- The callback raises an error. -/
  | raise (e : Failure)
  /-- The group is created. -/
  | create
  /-- Somebody appends an entry. -/
  | append (fields : Fields)
  /-- Another consumer reads new entries. -/
  | share (consumer : String) (count : Nat)

section

variable (c : ConsumerConfig) (partition : Int)

/-- Goes on after a batch. -/
def batch (s : Loop) (entries : List Handed) (streams : Streams) (events : List Event) :
    Loop × List Event :=
  ({ s.respond c partition (.batch entries) with streams }, events ++ s.begun (.batch entries))

/-- Serves the request of the consumer, if it is a command of the broker. -/
def answer (s : Loop) : Loop × List Event :=
  match s.move.request with
  | .readOwn =>
    match s.streams.readOwn (c.stream partition) c.group c.name c.batch.toNat with
    | .ok entries => s.batch c partition entries s.streams []
    | .error _ => (s, [])
  | .readNew =>
    match s.streams.readNew (c.stream partition) c.group c.name c.batch.toNat s.now with
    | .ok (entries, streams) => s.batch c partition entries streams []
    | .error _ => (s, [])
  | .takeOver =>
    match s.streams.takeOver (c.stream partition) c.group c.name c.idleMs c.batch.toNat s.now with
    | .ok (entries, streams) =>
      s.batch c partition (entries.map fun (id, fields) => (id, some fields)) streams
        [.took s.time (entries.map (·.1))]
    | .error _ => (s, [])
  | _ => (s, [])

/-- Carries something out. -/
def play (s : Loop) : Deed → Loop × List Event
  | .pass later =>
    if s.time ≤ later.milliseconds then ({ s with now := later }, []) else (s, [])
  | .serve => s.answer c partition
  | .raise e =>
    match s.move.request with
    | .handle _ =>
      if e.isCancellation = false then (s.respond c partition (.failed e), s.begun (.failed e))
      else (s, [])
    | _ => (s, [])
  | .create =>
    match s.streams.createGroup (c.stream partition) c.group with
    | .ok streams => ({ s with streams }, [])
    | .error _ => (s, [])
  | .append fields =>
    ({ s with streams := (s.streams.append (c.stream partition) s.now fields none false).2 }, [])
  | .share consumer count =>
    match s.streams.readNew (c.stream partition) c.group consumer count s.now with
    | .ok (_, streams) => ({ s with streams }, [])
    | .error _ => (s, [])

/-- Carries out one thing after the other. -/
def plays (s : Loop) : List Deed → Loop × List Event
  | [] => (s, [])
  | d :: ds =>
    let (s, events) := s.play c partition d
    let (s, log) := plays s ds
    (s, events ++ log)

end

variable {c : ConsumerConfig} {partition : Int} {s : Loop}

/-- What is answered is a run. -/
theorem run_answer (s : Loop) :
    Run c partition s (s.answer c partition).2 (s.answer c partition).1 := by
  unfold answer
  split
  · rename_i hrequest
    split
    · rename_i entries hread
      exact (Step.serve s (.readOwn hrequest hread)).run
    · exact .done s
  · rename_i hrequest
    split
    · rename_i entries streams hread
      exact (Step.serve s (.readNew hrequest hread)).run
    · exact .done s
  · rename_i hrequest
    split
    · rename_i entries streams htake
      exact (Step.serve s (.takeOver hrequest htake)).run
    · exact .done s
  · exact .done s

/-- What is carried out is a run. -/
theorem run_play (s : Loop) (d : Deed) :
    Run c partition s (s.play c partition d).2 (s.play c partition d).1 := by
  unfold play
  split
  · rename_i later
    split
    · rename_i hlater
      exact (Step.pass s hlater).run
    · exact .done s
  · exact run_answer s
  · rename_i e
    split
    · rename_i d' hrequest
      split
      · rename_i he
        refine (Step.called s hrequest (r := .error e) fun e' heq => ?_).run
        cases heq
        exact he
      · exact .done s
    · exact .done s
  · split
    · rename_i streams hcreate
      exact (Step.elsewhere s (.createGroup hcreate)).run
    · exact .done s
  · exact (Step.elsewhere s (.append _ none false)).run
  · split
    · rename_i entries streams hread
      exact (Step.elsewhere s (.readNew hread)).run
    · exact .done s

/-- So are several things, one after the other. -/
theorem run_plays (s : Loop) (ds : List Deed) :
    Run c partition s (s.plays c partition ds).2 (s.plays c partition ds).1 := by
  induction ds generalizing s with
  | nil => exact .done s
  | cons d ds ih => exact (run_play s d).append (ih _)

/-- A run with the log that they leave. -/
theorem run_of_plays {ds : List Deed} {log : List Event} (h : (s.plays c partition ds).2 = log) :
    Run c partition s log (s.plays c partition ds).1 :=
  h ▸ run_plays s ds

end Loop

end EventRelay
