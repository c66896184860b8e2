import EventRelay.Proofs.Consumer.Run
import EventRelay.Proofs.Stream.Idle

/-!
# The loop of a consumer

One consumer that works on one partition without end, with the broker and the clock that the broker
goes by.  `Loop` is what there is then, `Step` is one thing that happens: time passes, a request of
the consumer is served or fails, its callback has ended, others work with the same stream.  Steps
come in any order, so callbacks and waits last as long as they like.

A cancellation, or a command of the broker that fails for the consumer, interrupts it: a cancelled
consumer asks for nothing more, another one pauses and goes on without the rest of its batch.

* `Step`, `Run`, `Reachable`: what happens, with the events that tell of it.
* `Step.spec`: every step keeps the stream in order, and what becomes of pending entries.
* `request_of_begun`: what it is to set to work on an entry.
* `Run.dispatched`: what the consumer takes over it also sets to work on.
-/

namespace EventRelay

/-- A consumer that works on a partition without end, and what there is around it. -/
structure Loop where
  /-- The time. -/
  now : Instant
  /-- The streams of the broker. -/
  streams : Streams
  /-- Where the consumer stands and what it asks for. -/
  move : ConsumerMove

namespace Loop

open Consumer

/-- Something that happens. -/
inductive Event where
  /-- The consumer takes over these idle entries at that millisecond. -/
  | took (time : Nat) (entries : List String)
  /-- The consumer sets to work on an entry. -/
  | dispatched (entry : String)
  /-- Another consumer takes over these entries. -/
  | lent (entries : List String)
  /-- The consumer is interrupted. -/
  | interrupted
deriving DecidableEq

/-- The times at which the consumer took over idle entries. -/
def rounds (log : List Event) : List Nat :=
  log.filterMap fun
    | .took time _ => some time
    | _ => none

/-- The entries that were taken over, by whomever. -/
def handed (log : List Event) : List String :=
  log.flatMap fun
    | .took _ entries => entries
    | .lent entries => entries
    | _ => []

/-- The entries that the consumer took over. -/
def taken (log : List Event) : List String :=
  log.flatMap fun
    | .took _ entries => entries
    | _ => []

/-- The time in milliseconds, by which the broker goes. -/
def time (s : Loop) : Nat := s.now.milliseconds

/-- What is left of a batch after a response. -/
def due : ConsumerState → ConsumerResponse → List Handed
  | .fetching _, .batch entries => entries
  | .handling _ _ rest _, .failed _ => rest
  | .acking _ rest _, .done => rest
  | _, _ => []

/-- The entry that the consumer sets to work on at a response. -/
def begun (s : Loop) (response : ConsumerResponse) : List Event :=
  ((due s.move.state response).take 1).map fun x => .dispatched x.1

/-- The entries of its batch that the consumer has still to set to work on. -/
def owed : ConsumerState → List String
  | .handling _ _ rest _ => rest.map (·.1)
  | .acking _ rest _ => rest.map (·.1)
  | _ => []

section

variable (c : ConsumerConfig) (partition : Int)

/-- What the group knows of the partition. -/
def group (s : Loop) : Group := (s.streams.named (c.stream partition)).groupOf c.group

/-- The consumer goes on after a response to its last request. -/
def respond (s : Loop) (response : ConsumerResponse) : Loop :=
  { s with move := Consumer.advance c partition .endless s.move.state response }

/-- What is done about a request at the time. -/
inductive Served (s : Loop) : ConsumerResponse → Streams → List Event → Prop where
  /-- Its own entries are read. -/
  | readOwn {entries : List Handed} (hrequest : s.move.request = .readOwn)
      (h : s.streams.readOwn (c.stream partition) c.group c.name c.batch.toNat = .ok entries) :
      Served s (.batch entries) s.streams []
  /-- New entries are read. -/
  | readNew {entries : List Handed} {streams : Streams} (hrequest : s.move.request = .readNew)
      (h : s.streams.readNew (c.stream partition) c.group c.name c.batch.toNat s.now =
        .ok (entries, streams)) : Served s (.batch entries) streams []
  /-- Idle entries are taken over. -/
  | takeOver {entries : List (String × Fields)} {streams : Streams}
      (hrequest : s.move.request = .takeOver)
      (h : s.streams.takeOver (c.stream partition) c.group c.name c.idleMs c.batch.toNat s.now =
        .ok (entries, streams)) :
      Served s (.batch (entries.map fun (id, fields) => (id, some fields))) streams
        [.took s.time (entries.map (·.1))]
  /-- An entry is acknowledged. -/
  | acknowledge {entry : String} (hrequest : s.move.request = .acknowledge entry) :
      Served s .done (s.streams.acknowledge (c.stream partition) c.group entry) []
  /-- A pause is over. -/
  | rest (hrequest : s.move.request = .rest) : Served s .done s.streams []

/-- What others do to the streams. -/
inductive Elsewhere (s : Loop) : Streams → List Event → Prop where
  /-- An entry is appended. -/
  | append (fields : Fields) (maxlen : Option Int) (approximate : Bool) :
      Elsewhere s (s.streams.append (c.stream partition) s.now fields maxlen approximate).2 []
  /-- An entry is removed, by somebody or because the length of the stream is limited. -/
  | erase (id : String) : Elsewhere s (s.streams.erase (c.stream partition) id) []
  /-- Somebody creates a group. -/
  | createGroup {name : String} {streams : Streams}
      (h : s.streams.createGroup (c.stream partition) name = .ok streams) :
      Elsewhere s streams []
  /-- Another consumer of the group reads new entries. -/
  | readNew {consumer : String} {count : Nat} {entries : List Handed} {streams : Streams}
      (h : s.streams.readNew (c.stream partition) c.group consumer count s.now =
        .ok (entries, streams)) : Elsewhere s streams []
  /-- Another consumer of the group takes over idle entries. -/
  | takeOver {consumer : String} {least : Int} {count : Nat} {entries : List (String × Fields)}
      {streams : Streams}
      (h : s.streams.takeOver (c.stream partition) c.group consumer least count s.now =
        .ok (entries, streams)) : Elsewhere s streams [.lent (entries.map (·.1))]
  /-- Another consumer of the group acknowledges an entry. -/
  | acknowledge (entry : String) :
      Elsewhere s (s.streams.acknowledge (c.stream partition) c.group entry) []
  /-- Other streams change, or other groups. -/
  | others {streams : Streams}
      (hentries : (streams.named (c.stream partition)).entries =
        (s.streams.named (c.stream partition)).entries)
      (hlast : (streams.named (c.stream partition)).lastId =
        (s.streams.named (c.stream partition)).lastId)
      (hgroup : (streams.named (c.stream partition)).group? c.group =
        (s.streams.named (c.stream partition)).group? c.group) : Elsewhere s streams []

/-- One thing that happens, and the events that tell of it. -/
inductive Step : Loop → List Event → Loop → Prop where
  /-- Time passes. -/
  | pass (s : Loop) {later : Instant} (h : s.time ≤ later.milliseconds) :
      Step s [] { s with now := later }
  /-- A request is served. -/
  | serve (s : Loop) {response : ConsumerResponse} {streams : Streams} {events : List Event}
      (h : Served c partition s response streams events) :
      Step s (events ++ s.begun response)
        { s.respond c partition response with streams }
  /-- A request is served, but the consumer does not learn of it. -/
  | lose (s : Loop) {response : ConsumerResponse} {streams : Streams} {events : List Event}
      (h : Served c partition s response streams events) (e : Failure) :
      Step s [.interrupted] { s.respond c partition (.failed e) with streams }
  /-- A request fails. -/
  | fail (s : Loop) (hrequest : IsServed s.move.request) (e : Failure) :
      Step s [.interrupted] (s.respond c partition (.failed e))
  /-- The callback has ended. -/
  | called (s : Loop) {d : Delivery} (hrequest : s.move.request = .handle d)
      {r : Except Failure Unit} (hr : ∀ e, r = .error e → e.isCancellation = false) :
      Step s (s.begun (responseOf r)) (s.respond c partition (responseOf r))
  /-- The callback is cancelled. -/
  | cancelled (s : Loop) {d : Delivery} (hrequest : s.move.request = .handle d) {e : Failure}
      (he : e.isCancellation = true) :
      Step s [.interrupted] (s.respond c partition (.failed e))
  /-- Others change the streams. -/
  | elsewhere (s : Loop) {streams : Streams} {events : List Event}
      (h : Elsewhere c partition s streams events) : Step s events { s with streams }

/-- What happens one after the other. -/
inductive Run : Loop → List Event → Loop → Prop where
  /-- Nothing. -/
  | done (s : Loop) : Run s [] s
  /-- One step, and then others. -/
  | step {s s' s'' : Loop} {events log : List Event} (h : Step c partition s events s')
      (hrest : Run s' log s'') : Run s (events ++ log) s''

/-- What a run can come to: in the beginning there is no stream, and the consumer starts. -/
def Reachable (s : Loop) : Prop :=
  ∃ now log, Run c partition ⟨now, [], Consumer.start⟩ log s

end

variable {c : ConsumerConfig} {partition : Int} {s s' s'' : Loop} {events log log' : List Event}
  {response : ConsumerResponse} {streams : Streams}

/-! ## Runs -/

/-- A run goes on with another one. -/
theorem Run.append (h : Run c partition s log s') (h' : Run c partition s' log' s'') :
    Run c partition s (log ++ log') s'' := by
  induction h with
  | done s => exact h'
  | step hstep _ ih =>
    rw [List.append_assoc]
    exact .step hstep (ih h')

/-- A step is a run. -/
theorem Step.run (h : Step c partition s events s') : Run c partition s events s' := by
  have hrun := Run.step h (.done s')
  rwa [List.append_nil] at hrun

/-! ## What a step does to the streams -/

@[simp] theorem handed_append (log log' : List Event) :
    handed (log ++ log') = handed log ++ handed log' :=
  List.flatMap_append

@[simp] theorem rounds_append (log log' : List Event) :
    rounds (log ++ log') = rounds log ++ rounds log' :=
  List.filterMap_append

@[simp] theorem taken_append (log log' : List Event) :
    taken (log ++ log') = taken log ++ taken log' :=
  List.flatMap_append

@[simp] theorem taken_begun (s : Loop) (response : ConsumerResponse) :
    taken (s.begun response) = [] := by
  unfold begun
  rcases due s.move.state response with _ | ⟨x, rest⟩ <;> rfl

@[simp] theorem handed_begun (s : Loop) (response : ConsumerResponse) :
    handed (s.begun response) = [] := by
  unfold begun
  rcases due s.move.state response with _ | ⟨x, rest⟩ <;> rfl

@[simp] theorem rounds_begun (s : Loop) (response : ConsumerResponse) :
    rounds (s.begun response) = [] := by
  unfold begun
  rcases due s.move.state response with _ | ⟨x, rest⟩ <;> rfl

/-- The stream and the group of the consumer are in order. -/
def Orderly (c : ConsumerConfig) (partition : Int) (s : Loop) : Prop :=
  s.streams.Orderly (c.stream partition) c.group

/-- What a step leaves as it should be. -/
structure Goes (c : ConsumerConfig) (partition : Int) (s : Loop) (events : List Event)
    (s' : Loop) : Prop where
  /-- The stream stays in order. -/
  orderly : s'.Orderly c partition
  /-- The clock does not go back. -/
  time : s.time ≤ s'.time
  /-- Entries are handed over as the events tell. -/
  becomes : .interrupted ∉ events → (s.group c partition).Becomes s.time (handed events)
    (s'.group c partition)

/-- Whatever is done about a request leaves stream and group as they should be. -/
theorem Served.spec (h : Served c partition s response streams events)
    (horderly : s.Orderly c partition) :
    streams.Orderly (c.stream partition) c.group ∧
      (s.group c partition).Becomes s.time (handed events)
        ((streams.named (c.stream partition)).groupOf c.group) := by
  cases h with
  | readOwn hrequest h => exact ⟨horderly, Group.becomes_refl _ _⟩
  | readNew hrequest h => exact horderly.readNew h
  | takeOver hrequest h =>
    rw [show handed [.took s.time _] = _ from List.append_nil _]
    exact horderly.takeOver h
  | acknowledge hrequest => exact horderly.acknowledge _
  | rest hrequest => exact ⟨horderly, Group.becomes_refl _ _⟩

/-- Whatever others do leaves stream and group as they should be. -/
theorem Elsewhere.spec (h : Elsewhere c partition s streams events)
    (horderly : s.Orderly c partition) :
    streams.Orderly (c.stream partition) c.group ∧
      (s.group c partition).Becomes s.time (handed events)
        ((streams.named (c.stream partition)).groupOf c.group) := by
  cases h with
  | append fields maxlen approximate => exact horderly.append fields maxlen approximate
  | erase id => exact horderly.erase id
  | createGroup h => exact horderly.createGroup h
  | readNew h => exact horderly.readNew h
  | takeOver h =>
    rw [show handed [.lent _] = _ from List.append_nil _]
    exact horderly.takeOver h
  | acknowledge entry => exact horderly.acknowledge entry
  | others hentries hlast hgroup =>
    refine ⟨horderly.same hentries hlast hgroup, ?_⟩
    unfold Loop.group Stream.groupOf
    rw [hgroup]
    exact Group.becomes_refl _ _

/-- Every step leaves stream and group as they should be. -/
theorem Step.spec (h : Step c partition s events s') (horderly : s.Orderly c partition) :
    Goes c partition s events s' := by
  cases h with
  | pass h => exact ⟨horderly, h, fun _ => Group.becomes_refl _ _⟩
  | serve h =>
    obtain ⟨horderly', hbecomes⟩ := h.spec horderly
    refine ⟨horderly', Nat.le_refl _, fun _ => ?_⟩
    rw [handed_append, handed_begun, List.append_nil]
    exact hbecomes
  | lose h e =>
    exact ⟨(h.spec horderly).1, Nat.le_refl _, fun h => absurd (List.mem_singleton_self _) h⟩
  | fail hrequest e => exact ⟨horderly, Nat.le_refl _, fun _ => Group.becomes_refl _ _⟩
  | called hrequest hr =>
    refine ⟨horderly, Nat.le_refl _, fun _ => ?_⟩
    rw [handed_begun]
    exact Group.becomes_refl _ _
  | cancelled hrequest he => exact ⟨horderly, Nat.le_refl _, fun _ => Group.becomes_refl _ _⟩
  | elsewhere h =>
    obtain ⟨horderly', hbecomes⟩ := h.spec horderly
    exact ⟨horderly', Nat.le_refl _, fun _ => hbecomes⟩

/-- A run leaves stream and group in order. -/
theorem Run.orderly (h : Run c partition s log s') (horderly : s.Orderly c partition) :
    s'.Orderly c partition := by
  induction h with
  | done s => exact horderly
  | step hstep _ ih => exact ih (hstep.spec horderly).orderly

/-- Stream and group are in order in every state of a run. -/
theorem Reachable.orderly (h : Reachable c partition s) : s.Orderly c partition := by
  obtain ⟨now, log, hrun⟩ := h
  exact hrun.orderly (Streams.orderly_nil _ _)

/-! ## What the consumer sets to work on -/

/-- Whether a consumer that stands there may ask for that. -/
def Asks : ConsumerState → ConsumerRequest → Prop
  | _, .finish _ => True
  | .fetching .backlog, .readOwn => True
  | .fetching .idle, .takeOver => True
  | .fetching .fresh, .readNew => True
  | .handling .., .handle _ => True
  | .acking .., .acknowledge _ => True
  | .resting _, .rest => True
  | _, _ => False

/-- A consumer that fetches asks for what it fetches. -/
theorem asks_fetch (source : Source) : Asks (fetch source).state (fetch source).request := by
  cases source <;> trivial

/-- The consumer sets to work on the first entry of a batch, and owes the others. -/
theorem next_cons (source : Source) (x : Handed) (rest : List Handed) (acked : Nat) :
    Asks (next c partition .endless source (x :: rest) acked).state
        (next c partition .endless source (x :: rest) acked).request ∧
      owed (next c partition .endless source (x :: rest) acked).state = rest.map (·.1) := by
  obtain ⟨entry, fields⟩ := x
  rcases fields with _ | _ | ⟨f, fs⟩
  · exact ⟨trivial, rfl⟩
  · exact ⟨trivial, rfl⟩
  · exact ⟨trivial, rfl⟩

/-- A consumer that goes on with a batch asks for what it stands at. -/
theorem asks_next (source : Source) (entries : List Handed) (acked : Nat) :
    Asks (next c partition .endless source entries acked).state
      (next c partition .endless source entries acked).request := by
  cases entries with
  | nil =>
    cases source with
    | backlog => exact asks_fetch _
    | idle => exact asks_fetch _
    | fresh => exact asks_fetch _
  | cons x rest => exact (next_cons source x rest acked).1

/-- A consumer after an error asks for what it stands at. -/
theorem asks_afterError (source : Source) (e : Failure) :
    Asks (afterError c partition .endless source e).state
      (afterError c partition .endless source e).request := by
  unfold afterError
  dsimp only
  split <;> trivial

/-- A consumer after any response asks for what it stands at. -/
theorem asks_advance (state : ConsumerState) (response : ConsumerResponse) :
    Asks (advance c partition .endless state response).state
      (advance c partition .endless state response).request := by
  unfold advance
  split
  · exact asks_next _ _ _
  · exact asks_next _ _ _
  · exact asks_afterError _ _
  · split
    · trivial
    · exact asks_next _ _ _
  · trivial
  · exact asks_afterError _ _
  · exact asks_next _ _ _
  · trivial
  · exact asks_fetch _

/-- Every step leaves the consumer with a request that fits. -/
theorem Step.asks (h : Step c partition s events s') (hasks : Asks s.move.state s.move.request) :
    Asks s'.move.state s'.move.request := by
  cases h with
  | pass h => exact hasks
  | serve h => exact asks_advance _ _
  | lose h e => exact asks_advance _ _
  | fail hrequest e => exact asks_advance _ _
  | called hrequest hr => exact asks_advance _ _
  | cancelled hrequest he => exact asks_advance _ _
  | elsewhere h => exact hasks

/-- In a run a consumer always asks for what it stands at. -/
theorem Run.asks (h : Run c partition s log s') (hasks : Asks s.move.state s.move.request) :
    Asks s'.move.state s'.move.request := by
  induction h with
  | done s => exact hasks
  | step hstep _ ih => exact ih (hstep.asks hasks)

/-- So it does in every state of a run. -/
theorem Reachable.asks (h : Reachable c partition s) : Asks s.move.state s.move.request := by
  obtain ⟨now, log, hrun⟩ := h
  exact hrun.asks trivial

/-- Who asks for a take-over fetches idle entries. -/
theorem eq_fetching_of_asks {state : ConsumerState} (h : Asks state .takeOver) :
    state = .fetching .idle := by
  rcases state with (_ | _ | _) | _ | _ | _
  all_goals first
    | rfl
    | exact h.elim

/-- Who asks for a callback has an entry. -/
theorem eq_handling_of_asks {state : ConsumerState} {d : Delivery} (h : Asks state (.handle d)) :
    ∃ source entry rest acked, state = .handling source entry rest acked := by
  rcases state with (_ | _ | _) | ⟨source, entry, rest, acked⟩ | _ | _
  all_goals first
    | exact ⟨source, entry, rest, acked, rfl⟩
    | exact h.elim

/-- Who asks for an acknowledgement has an entry to settle. -/
theorem eq_acking_of_asks {state : ConsumerState} {entry : String}
    (h : Asks state (.acknowledge entry)) :
    ∃ source rest acked, state = .acking source rest acked := by
  rcases state with (_ | _ | _) | _ | ⟨source, rest, acked⟩ | _
  all_goals first
    | exact ⟨source, rest, acked, rfl⟩
    | exact h.elim

/-- Who asks the broker for entries owes none to a batch. -/
theorem owed_eq_nil_of_asks {state : ConsumerState} {request : ConsumerRequest}
    (h : Asks state request) (hserved : IsServed request)
    (hother : ∀ entry, request ≠ .acknowledge entry) : owed state = [] := by
  rcases state with _ | _ | _ | _
  · rfl
  · cases request with
    | handle d => exact hserved.elim
    | finish r => exact hserved.elim
    | _ => exact h.elim
  · cases request with
    | acknowledge entry => exact absurd rfl (hother entry)
    | finish r => exact hserved.elim
    | _ => exact h.elim
  · rfl

/-- A consumer with a batch asks for the callback or for an acknowledgement of its first entry. -/
theorem request_next_cons (source : Source) (x : Handed) (rest : List Handed) (acked : Nat) :
    (next c partition .endless source (x :: rest) acked).request = .acknowledge x.1 ∨
      ∃ fields, (next c partition .endless source (x :: rest) acked).request =
        .handle (.ofFields c.topic partition x.1 fields) := by
  obtain ⟨entry, fields⟩ := x
  rcases fields with _ | _ | ⟨f, fs⟩
  · exact .inl rfl
  · exact .inl rfl
  · exact .inr ⟨f :: fs, rfl⟩

section due

variable (hresponse : ∀ e, response = .failed e → e.isCancellation = false)

include hresponse

/-- Unless its callback was cancelled, the consumer goes on with what is left of its batch. -/
theorem advance_of_due {state : ConsumerState} {x : Handed} {rest : List Handed}
    (hdue : due state response = x :: rest) :
    ∃ source acked,
      (advance c partition .endless state response).state =
        (next c partition .endless source (x :: rest) acked).state ∧
      (advance c partition .endless state response).request =
        (next c partition .endless source (x :: rest) acked).request := by
  unfold due at hdue
  split at hdue
  · rename_i source entries
    exact ⟨source, 0, hdue ▸ ⟨rfl, rfl⟩⟩
  · rename_i source entry others acked e
    have hraised : ¬ e.isCancellation = true := by
      rw [hresponse e rfl]
      exact Bool.false_ne_true
    refine ⟨source, acked, ?_⟩
    rw [← hdue]
    simp only [advance, if_neg hraised, and_self]
  · rename_i source others acked
    exact ⟨source, acked + 1, hdue ▸ ⟨rfl, rfl⟩⟩
  · cases hdue

/-- To set to work on an entry is to give it to the callback, or to acknowledge it at once if there
is nothing to give. -/
theorem request_of_begun {entry : String} (h : .dispatched entry ∈ s.begun response) :
    (s.respond c partition response).move.request = .acknowledge entry ∨
      ∃ fields, (s.respond c partition response).move.request =
        .handle (.ofFields c.topic partition entry fields) := by
  unfold begun at h
  rcases hdue : due s.move.state response with _ | ⟨x, rest⟩
  · rw [hdue] at h
    exact absurd h List.not_mem_nil
  · rw [hdue] at h
    cases List.mem_singleton.mp h
    obtain ⟨source, acked, -, hrequest⟩ := advance_of_due (c := c) hresponse hdue
    unfold respond
    dsimp only
    rw [hrequest]
    exact request_next_cons source x rest acked

/-- The consumer sets to work on what is left of its batch, or owes it. -/
theorem dispatched_or_owed {entry : String}
    (h : entry ∈ (due s.move.state response).map (·.1)) :
    .dispatched entry ∈ s.begun response ∨
      entry ∈ owed (advance c partition .endless s.move.state response).state := by
  unfold begun
  rcases hdue : due s.move.state response with _ | ⟨x, rest⟩
  · rw [hdue] at h
    exact absurd h List.not_mem_nil
  · obtain ⟨source, acked, hstate, -⟩ := advance_of_due (c := c) hresponse hdue
    rw [hdue] at h
    rw [hstate, (next_cons source x rest acked).2]
    rcases List.mem_cons.mp h with rfl | h
    · exact .inl List.mem_cons_self
    · exact .inr h

end due

/-- Unless it is interrupted, the consumer sets to work on what it takes over, or owes it. -/
theorem Served.dispatched (h : Served c partition s response streams events)
    (hasks : Asks s.move.state s.move.request) {entry : String}
    (hentry : entry ∈ owed s.move.state ∨ entry ∈ taken events) :
    .dispatched entry ∈ s.begun response ∨
      entry ∈ owed (advance c partition .endless s.move.state response).state := by
  -- only while it acknowledges an entry the consumer owes others
  have howed : IsServed s.move.request → (∀ id, s.move.request ≠ .acknowledge id) →
      taken events = [] → False := by
    intro hserved hother htaken
    rw [owed_eq_nil_of_asks hasks hserved hother, htaken] at hentry
    exact hentry.elim List.not_mem_nil List.not_mem_nil
  cases h with
  | readOwn hrequest h => exact (howed (hrequest ▸ trivial) (by simp [hrequest]) rfl).elim
  | readNew hrequest h => exact (howed (hrequest ▸ trivial) (by simp [hrequest]) rfl).elim
  | takeOver hrequest h =>
    rw [hrequest] at hasks
    have hstate := eq_fetching_of_asks hasks
    rw [hstate] at hentry
    have hids := hentry.resolve_left List.not_mem_nil
    rw [show taken [.took s.time _] = _ from List.append_nil _] at hids
    refine dispatched_or_owed (fun _ he => by cases he) ?_
    rw [hstate, due, List.map_map]
    exact hids
  | acknowledge hrequest =>
    rw [hrequest] at hasks
    obtain ⟨source, rest, acked, hstate⟩ := eq_acking_of_asks hasks
    refine dispatched_or_owed (fun _ he => by cases he) ?_
    rw [hstate] at hentry ⊢
    exact hentry.resolve_right List.not_mem_nil
  | rest hrequest => exact (howed (hrequest ▸ trivial) (by simp [hrequest]) rfl).elim

/-- Unless it is interrupted, the consumer sets to work on what it owes or takes over, or owes it
still. -/
theorem Step.dispatched (h : Step c partition s events s')
    (hasks : Asks s.move.state s.move.request) (hquiet : .interrupted ∉ events) {entry : String}
    (hentry : entry ∈ owed s.move.state ∨ entry ∈ taken events) :
    .dispatched entry ∈ events ∨ entry ∈ owed s'.move.state := by
  cases h with
  | pass h => exact .inr (hentry.resolve_right List.not_mem_nil)
  | serve h =>
    rw [taken_append, taken_begun, List.append_nil] at hentry
    exact (h.dispatched hasks hentry).imp_left (List.mem_append_right _)
  | lose h e => exact absurd (List.mem_singleton_self _) hquiet
  | fail hrequest e => exact absurd (List.mem_singleton_self _) hquiet
  | called hrequest hr =>
    rename_i r
    rw [taken_begun] at hentry
    have howed := hentry.resolve_right List.not_mem_nil
    rw [hrequest] at hasks
    obtain ⟨source, id, rest, acked, hstate⟩ := eq_handling_of_asks hasks
    rcases r with e | _
    · -- the callback has raised: the consumer goes on with the batch
      refine dispatched_or_owed (fun e' he => ?_) ?_
      · cases he
        exact hr e rfl
      · rw [hstate] at howed ⊢
        exact howed
    · -- it has returned: first the entry is acknowledged
      refine .inr ?_
      unfold respond
      rw [hstate] at howed ⊢
      exact howed
  | cancelled hrequest he => exact absurd (List.mem_singleton_self _) hquiet
  | elsewhere h =>
    refine .inr (hentry.resolve_right fun hmem => ?_)
    cases h <;> exact absurd hmem List.not_mem_nil

/-- Unless it is interrupted, the consumer sets to work on whatever it takes over. -/
theorem Run.dispatched (h : Run c partition s log s')
    (hasks : Asks s.move.state s.move.request) (hquiet : .interrupted ∉ log) {entry : String}
    (hentry : entry ∈ owed s.move.state ∨ entry ∈ taken log) :
    .dispatched entry ∈ log ∨ entry ∈ owed s'.move.state := by
  induction h with
  | done s => exact .inr (hentry.resolve_right List.not_mem_nil)
  | step hstep _ ih =>
    rw [List.mem_append, not_or] at hquiet
    have hlater := ih (hstep.asks hasks) hquiet.2
    rw [taken_append, List.mem_append, ← or_assoc] at hentry
    rcases hentry with hnow | htaken
    · rcases hstep.dispatched hasks hquiet.1 hnow with hdispatched | howed
      · exact .inl (List.mem_append_left _ hdispatched)
      · exact (hlater (.inl howed)).imp_left (List.mem_append_right _)
    · exact (hlater (.inr htaken)).imp_left (List.mem_append_right _)

end Loop

end EventRelay
