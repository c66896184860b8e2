import EventRelay.Proofs.Consumer.Run

/-!
# What consumers are answerable for

An entry that a consumer acknowledges must be accounted for: its event is recorded in the ledger, or
a dead letter tells of it.  Four layers have a say in that, and each keeps a promise of its own.

* `Accounted`: what must be the case; `Grows`: nothing that happens undoes it.
* `Attempted`: the run with retries ends well only where the delivery is accounted for.
* `Fit`: a consumer acknowledges only what is, and knows the truth about its batch.
* `Fit.done`, `Fit.batch`, `Fit.failed`: each response leaves it fit.
-/

namespace EventRelay

namespace Consumer

open Work

variable {g : Subscription} {rules : Rules} {s s' : Crew} {w : Worker} {d : Delivery}

/-! ## What is accounted for -/

/-- A delivery is accounted for: its key is recorded in the ledger, or a dead letter of it is in a
stream. -/
def Accounted (g : Subscription) (s : Crew) (d : Delivery) : Prop :=
  s.handlers.stored.isRecorded d.eventKey = true ∨
    ∃ partition, ∃ e ∈ s.streams.entriesOf (streamName g.letters partition),
      IsLetterFor g.letters partition e d

/-- Nothing that matters to a consumer is undone. -/
structure Grows (g : Subscription) (s s' : Crew) : Prop where
  /-- What is recorded stays recorded. -/
  recorded : ∀ key, s.handlers.stored.isRecorded key = true →
    s'.handlers.stored.isRecorded key = true
  /-- Calls of the handler keep their numbers. -/
  handles : ∀ number d, Handler.Handles s.handlers number d →
    Handler.Handles s'.handlers number d
  /-- New entries come last, and dead letters are not removed. -/
  streams : ∀ name, (s.streams.named name).Evolves (g.HoldsLetters name) (s'.streams.named name)

/-- Whatever happens to consumers, calls and acknowledgements, the tables and streams stay. -/
theorem grows_of_same (hhandlers : s'.handlers = s.handlers) (hstreams : s'.streams = s.streams) :
    Grows g s s' where
  recorded _ h := hhandlers ▸ h
  handles _ _ h := hhandlers ▸ h
  streams name := by
    rw [hstreams]
    exact Stream.evolves_of_same rfl rfl

/-- What is accounted for stays so. -/
theorem Accounted.grow (h : Accounted g s d) (hgrows : Grows g s s') : Accounted g s' d := by
  rcases h with hrecorded | ⟨partition, e, he, hletter⟩
  · exact .inl (hgrows.recorded _ hrecorded)
  · refine .inr ⟨partition, e, ?_, hletter⟩
    rw [Streams.entriesOf_eq] at he ⊢
    exact (hgrows.streams _).kept ⟨partition, rfl⟩ e he

/-- An accepted dead letter accounts for its delivery. -/
theorem accounted_of_sent {handlers : Handlers} {ss : Streams} {workers : List Worker}
    {acks : List Ack} (htopic : d.topic = g.topic) (b : Broker) (policy : RetryPolicy)
    (cause : Failure) (partition : Int) (now : Instant) :
    Accounted g
      ⟨handlers, (b.accept (Retry.deadLetter policy g.ending d cause) partition now ss).2, workers,
        acks⟩ d := by
  obtain ⟨e, he, hletter⟩ := exists_letter b policy g.ending d cause partition now ss
  unfold Accounted Subscription.letters
  rw [htopic] at he hletter
  refine .inr ⟨partition, e, ?_, hletter⟩
  rw [Streams.entriesOf_eq]
  exact he

/-! ## What a consumer knows -/

/-- A run with retries that is well under way: it ends well only if the delivery is accounted for,
and what it sends is the dead letter. -/
def Attempted (g : Subscription) (s : Crew) (w : Worker) (d : Delivery) : Prop :=
  match w.retry with
  | (.calling _, .call) => ∀ number, w.call = some number → Handler.Handles s.handlers number d
  | (.resting _, .rest _) => True
  | (.escalating cause, .send m) => m = Retry.deadLetter w.policy g.ending d cause
  | (_, .finish r) => r = .ok () → Accounted g s d
  | _ => False

/-- A consumer stands where it says. -/
inductive Placed (g : Subscription) (s : Crew) (w : Worker) : Prop where
  /-- It waits for a batch, or has stopped. -/
  | fetching (source : Source) (hstate : w.move.state = .fetching source)
      (hrequest : (∀ d, w.move.request ≠ .handle d) ∧ ∀ entry, w.move.request ≠ .acknowledge entry)
  /-- A callback has the first entry of the batch. -/
  | handling (source : Source) (entry : String) (f : String × String) (fs : Fields)
      (rest : List Handed) (acked : Nat) (hstate : w.move.state = .handling source entry rest acked)
      (hbatch : w.batch = (entry, some (f :: fs)) :: rest)
      (hrequest : w.move.request = .handle (.ofFields g.topic w.partition entry (f :: fs)))
      (hattempted : Attempted g s w (.ofFields g.topic w.partition entry (f :: fs)))
  /-- The first entry of the batch is being acknowledged. -/
  | acking (source : Source) (entry : String) (fields : Option Fields) (rest : List Handed)
      (acked : Nat) (hstate : w.move.state = .acking source rest acked)
      (hbatch : w.batch = (entry, fields) :: rest)
      (hrequest : w.move.request = .acknowledge entry)
      (haccounted : ∀ f fs, fields = some (f :: fs) →
        Accounted g s (.ofFields g.topic w.partition entry (f :: fs)))
  /-- It pauses. -/
  | resting (backlog : Bool) (hstate : w.move.state = .resting backlog)
      (hrequest : (∀ d, w.move.request ≠ .handle d) ∧ ∀ entry, w.move.request ≠ .acknowledge entry)

/-- A consumer that can be trusted. -/
structure Fit (g : Subscription) (s : Crew) (w : Worker) : Prop where
  /-- It reads the topic. -/
  topic : w.config.topic = g.topic
  /-- It belongs to the group. -/
  group : w.config.group = g.group
  /-- What it was told of its batch is true. -/
  vouched : ∀ x ∈ w.batch, (s.streams.named (g.stream w.partition)).Vouches x
  /-- It stands where it says. -/
  placed : Placed g s w

/-- A run with retries that is well under way stays so. -/
theorem Attempted.grow (h : Attempted g s w d) (hgrows : Grows g s s') : Attempted g s' w d := by
  unfold Attempted at h ⊢
  split at h
  · exact fun number hcall => hgrows.handles number d (h number hcall)
  · trivial
  · exact h
  · exact fun hr => (h hr).grow hgrows
  · exact h.elim

/-- A consumer that can be trusted still can. -/
theorem Fit.grow (h : Fit g s w) (hgrows : Grows g s s') : Fit g s' w where
  topic := h.topic
  group := h.group
  vouched x hx := (h.vouched x hx).evolve (hgrows.streams _)
  placed := by
    cases h.placed with
    | fetching source hstate hrequest => exact .fetching source hstate hrequest
    | handling source entry f fs rest acked hstate hbatch hrequest hattempted =>
      exact .handling source entry f fs rest acked hstate hbatch hrequest (hattempted.grow hgrows)
    | acking source entry fields rest acked hstate hbatch hrequest haccounted =>
      exact .acking source entry fields rest acked hstate hbatch hrequest
        fun f fs hfields => (haccounted f fs hfields).grow hgrows
    | resting backlog hstate hrequest => exact .resting backlog hstate hrequest

/-! ## Responses -/

/-- A consumer that asks for a batch stands where it says. -/
theorem placed_fetch (source : Source) (hstate : w.move.state = (fetch source).state)
    (hrequest : w.move.request = (fetch source).request) : Placed g s w := by
  refine .fetching source hstate ?_
  rw [hrequest]
  cases source
  all_goals exact ⟨fun _ => nofun, fun _ => nofun⟩

/-- So does one that has stopped. -/
theorem placed_stopped (e : Failure) (source : Source) (hstate : w.move.state = .fetching source)
    (hrequest : w.move.request = .finish (.error e)) : Placed g s w := by
  refine .fetching source hstate ?_
  rw [hrequest]
  exact ⟨fun _ => nofun, fun _ => nofun⟩

/-- So does one that goes on with its batch. -/
theorem placed_next (htopic : w.config.topic = g.topic) (source : Source) (acked : Nat)
    {entries : List Handed} (hbatch : w.batch = entries)
    (hstate : w.move.state =
      (Consumer.next w.config w.partition .endless source entries acked).state)
    (hrequest : w.move.request =
      (Consumer.next w.config w.partition .endless source entries acked).request)
    (hretry : w.retry = Retry.start) (hcall : w.call = none) : Placed g s w := by
  rcases entries with _ | ⟨⟨entry, fields⟩, rest⟩
  · cases source
    · exact placed_fetch _ hstate hrequest
    · exact placed_fetch _ hstate hrequest
    · exact placed_fetch _ hstate hrequest
  · rcases fields with _ | _ | ⟨f, fs⟩
    · exact .acking source entry none rest acked hstate hbatch hrequest nofun
    · exact .acking source entry (some []) rest acked hstate hbatch hrequest nofun
    · refine .handling source entry f fs rest acked hstate hbatch ?_ ?_
      · rw [hrequest, ← htopic]
        rfl
      · unfold Attempted
        rw [hretry, hcall]
        exact nofun

/-- So does one whose request has failed. -/
theorem placed_afterError (source : Source) (e : Failure)
    (hmove : w.move = afterError w.config w.partition .endless source e) : Placed g s w := by
  unfold afterError at hmove
  dsimp only at hmove
  by_cases he : e.isCancellation = true
  · rw [if_pos he] at hmove
    exact placed_stopped e source (by rw [hmove]) (by rw [hmove])
  · rw [if_neg he] at hmove
    refine .resting (decide (source = .backlog)) (by rw [hmove]) ?_
    rw [hmove]
    exact ⟨fun _ => nofun, fun _ => nofun⟩

/-- What is left of a batch is what was known of it. -/
theorem Fit.vouched_batchAfter (h : Fit g s w) {response : ConsumerResponse}
    (hresponse : ∀ entries, response = .batch entries →
      ∀ x ∈ entries, (s.streams.named (g.stream w.partition)).Vouches x) :
    ∀ x ∈ w.batchAfter response, (s.streams.named (g.stream w.partition)).Vouches x := by
  intro x hx
  unfold Worker.batchAfter at hx
  split at hx
  · exact hresponse _ rfl x hx
  · exact h.vouched x (List.mem_of_mem_tail hx)
  · exact h.vouched x hx
  · exact h.vouched x (List.mem_of_mem_tail hx)
  · exact absurd hx List.not_mem_nil

/-- A response moves the consumer on. -/
theorem move_respond {state : ConsumerState} (hstate : w.move.state = state)
    (response : ConsumerResponse) :
    (w.respond response).move = advance w.config w.partition .endless state response := by
  rw [← hstate]
  rfl

/-- A consumer whose request failed can be trusted. -/
theorem Fit.failed (h : Fit g s w) (e : Failure) : Fit g s (w.respond (.failed e)) where
  topic := h.topic
  group := h.group
  vouched := h.vouched_batchAfter nofun
  placed := by
    cases h.placed with
    | fetching source hstate hrequest =>
      exact placed_afterError source e (move_respond hstate _)
    | handling source entry f fs rest acked hstate hbatch hrequest hattempted =>
      have hmove := move_respond hstate (.failed e)
      have hrest : (w.respond (.failed e)).batch = rest := by
        simp [Worker.respond, Worker.batchAfter, hstate, hbatch]
      unfold advance at hmove
      dsimp only at hmove
      by_cases he : e.isCancellation = true
      · rw [if_pos he] at hmove
        exact placed_stopped e source (by rw [hmove]) (by rw [hmove])
      · rw [if_neg he] at hmove
        exact placed_next h.topic source acked hrest (by rw [hmove]; rfl) (by rw [hmove]; rfl)
          rfl rfl
    | acking source entry fields rest acked hstate hbatch hrequest haccounted =>
      exact placed_afterError source e (move_respond hstate _)
    | resting backlog hstate hrequest =>
      have hmove := move_respond hstate (.failed e)
      refine .resting backlog (congrArg ConsumerMove.state hmove) ?_
      rw [hmove]
      exact ⟨fun _ => nofun, fun _ => nofun⟩

/-- A consumer that was told the truth about a batch can be trusted. -/
theorem Fit.batch (h : Fit g s w) (hhandle : ∀ d, w.move.request ≠ .handle d)
    (hacknowledge : ∀ entry, w.move.request ≠ .acknowledge entry) {entries : List Handed}
    (hentries : ∀ x ∈ entries, (s.streams.named (g.stream w.partition)).Vouches x) :
    Fit g s (w.respond (.batch entries)) where
  topic := h.topic
  group := h.group
  vouched := by
    refine h.vouched_batchAfter fun entries' hsame => ?_
    cases hsame
    exact hentries
  placed := by
    cases h.placed with
    | fetching source hstate hrequest =>
      have hmove := move_respond hstate (.batch entries)
      have hbatch : (w.respond (.batch entries)).batch = entries := by
        simp [Worker.respond, Worker.batchAfter, hstate]
      exact placed_next h.topic source 0 hbatch (congrArg ConsumerMove.state hmove)
        (congrArg ConsumerMove.request hmove) rfl rfl
    | handling source entry f fs rest acked hstate hbatch hrequest hattempted =>
      exact absurd hrequest (hhandle _)
    | acking source entry fields rest acked hstate hbatch hrequest haccounted =>
      exact absurd hrequest (hacknowledge _)
    | resting backlog hstate hrequest =>
      have hmove := move_respond hstate (.batch entries)
      exact placed_fetch _ (congrArg ConsumerMove.state hmove)
        (congrArg ConsumerMove.request hmove)

/-- A callback may return only where its delivery is accounted for. -/
theorem Fit.done (h : Fit g s w)
    (haccounted : ∀ d, w.move.request = .handle d → Accounted g s d) :
    Fit g s (w.respond .done) where
  topic := h.topic
  group := h.group
  vouched := h.vouched_batchAfter nofun
  placed := by
    cases h.placed with
    | fetching source hstate hrequest =>
      have hmove := move_respond hstate .done
      have hbatch : (w.respond .done).batch = [] := by
        simp [Worker.respond, Worker.batchAfter, hstate]
      exact placed_next h.topic source 0 hbatch (congrArg ConsumerMove.state hmove)
        (congrArg ConsumerMove.request hmove) rfl rfl
    | handling source entry f fs rest acked hstate hbatch hrequest hattempted =>
      have hmove := move_respond hstate .done
      have hsame : (w.respond .done).batch = (entry, some (f :: fs)) :: rest := by
        simp [Worker.respond, Worker.batchAfter, hstate, hbatch]
      refine .acking source entry (some (f :: fs)) rest acked
        (congrArg ConsumerMove.state hmove) hsame (congrArg ConsumerMove.request hmove)
        fun f' fs' hfields => ?_
      cases hfields
      exact haccounted _ hrequest
    | acking source entry fields rest acked hstate hbatch hrequest _ =>
      have hmove := move_respond hstate .done
      have hrest : (w.respond .done).batch = rest := by
        simp [Worker.respond, Worker.batchAfter, hstate, hbatch]
      exact placed_next h.topic source (acked + 1) hrest (congrArg ConsumerMove.state hmove)
        (congrArg ConsumerMove.request hmove) rfl rfl
    | resting backlog hstate hrequest =>
      have hmove := move_respond hstate .done
      exact placed_fetch _ (congrArg ConsumerMove.state hmove)
        (congrArg ConsumerMove.request hmove)

/-! ## Runs with retries -/

/-- A consumer whose callback has a delivery of the topic, with a run well under way. -/
theorem Fit.attempted (h : Fit g s w) (hrequest : w.move.request = .handle d) :
    Attempted g s w d ∧ d.topic = g.topic := by
  cases h.placed with
  | fetching source hstate hnone => exact absurd hrequest (hnone.1 d)
  | handling source entry f fs rest acked hstate hbatch hrequest' hattempted =>
    cases hrequest'.symm.trans hrequest
    exact ⟨hattempted, rfl⟩
  | acking source entry fields rest acked hstate hbatch hrequest' _ =>
    cases hrequest'.symm.trans hrequest
  | resting backlog hstate hnone => exact absurd hrequest (hnone.1 d)

/-- Only the run goes on. -/
theorem Fit.withRetry (h : Fit g s w) (hrequest : w.move.request = .handle d)
    {retry : RetryState × RetryRequest} {call : Option Nat}
    (hattempted : Attempted g s { w with retry, call } d) : Fit g s { w with retry, call } where
  topic := h.topic
  group := h.group
  vouched := h.vouched
  placed := by
    cases h.placed with
    | fetching source hstate hnone => exact absurd hrequest (hnone.1 d)
    | handling source entry f fs rest acked hstate hbatch hrequest' _ =>
      cases hrequest'.symm.trans hrequest
      exact .handling source entry f fs rest acked hstate hbatch hrequest' hattempted
    | acking source entry fields rest acked hstate hbatch hrequest' _ =>
      cases hrequest'.symm.trans hrequest
    | resting backlog hstate hnone => exact absurd hrequest (hnone.1 d)

/-- A run that asks for a call is calling, and its call handles the delivery. -/
theorem Attempted.of_call (h : Attempted g s w d) (hretry : w.retry.2 = .call) :
    ∃ n, w.retry = (.calling n, .call) ∧
      ∀ number, w.call = some number → Handler.Handles s.handlers number d := by
  rcases hw : w.retry with ⟨state, request⟩
  unfold Attempted at h
  rw [hw] at h hretry
  cases hretry
  cases state with
  | calling n => exact ⟨n, rfl, h⟩
  | resting n => exact h.elim
  | escalating cause => exact h.elim

/-- A run that asks for a rest is resting. -/
theorem Attempted.of_rest (h : Attempted g s w d) {m : Nat} (hretry : w.retry.2 = .rest m) :
    ∃ n, w.retry = (.resting n, .rest m) := by
  rcases hw : w.retry with ⟨state, request⟩
  unfold Attempted at h
  rw [hw] at h hretry
  cases hretry
  cases state with
  | calling n => exact h.elim
  | resting n => exact ⟨n, rfl⟩
  | escalating cause => exact h.elim

/-- What is sent is the dead letter. -/
theorem Attempted.of_send (h : Attempted g s w d) {m : Message} (hretry : w.retry.2 = .send m) :
    ∃ cause, w.retry = (.escalating cause, .send m) ∧
      m = Retry.deadLetter w.policy g.ending d cause := by
  rcases hw : w.retry with ⟨state, request⟩
  unfold Attempted at h
  rw [hw] at h hretry
  cases hretry
  cases state with
  | calling n => exact h.elim
  | resting n => exact h.elim
  | escalating cause => exact ⟨cause, rfl, h⟩

/-- The delivery is given to the handler. -/
theorem Attempted.begun (h : Attempted g s w d) (hretry : w.retry.2 = .call) {number : Nat}
    (hnumber : Handler.Handles s.handlers number d) :
    Attempted g s { w with retry := w.retry, call := some number } d := by
  obtain ⟨n, hw, -⟩ := h.of_call hretry
  unfold Attempted
  rw [hw]
  intro number' hsame
  cases hsame
  exact hnumber

/-- A call of the handler is over; if it went well, the delivery must be accounted for. -/
theorem Attempted.called (h : Attempted g s w d) (hretry : w.retry.2 = .call)
    {result : Except Failure Unit} (hresult : result = .ok () → Accounted g s d) :
    Attempted g s (w.retried g.ending d result) d := by
  obtain ⟨n, hw, -⟩ := h.of_call hretry
  unfold Attempted Worker.retried
  rw [hw]
  unfold Retry.advance
  rcases result with e | _
  · dsimp only
    by_cases he : e.isCancellation = true
    · rw [if_pos he]
      exact nofun
    · rw [if_neg he]
      by_cases hn : n < w.policy.limit
      · rw [if_pos hn]
        trivial
      · rw [if_neg hn]
  · exact fun _ => hresult rfl

/-- A wait between attempts is over. -/
theorem Attempted.rested (h : Attempted g s w d) {m : Nat} (hretry : w.retry.2 = .rest m)
    (r : Except Failure Unit) : Attempted g s (w.retried g.ending d r) d := by
  obtain ⟨n, hw⟩ := h.of_rest hretry
  unfold Attempted Worker.retried
  rw [hw]
  rcases r with e | _
  · exact nofun
  · exact nofun

/-- The sending is over; if it went well, the delivery must be accounted for. -/
theorem Attempted.sent (h : Attempted g s w d) {m : Message} (hretry : w.retry.2 = .send m)
    {r : Except Failure Unit} (hr : r = .ok () → Accounted g s d) :
    Attempted g s (w.retried g.ending d r) d := by
  obtain ⟨cause, hw, -⟩ := h.of_send hretry
  unfold Attempted Worker.retried
  rw [hw]
  exact hr

/-- A run that ended well leaves its delivery accounted for. -/
theorem Attempted.finished (h : Attempted g s w d) {r : Except Failure Unit}
    (hretry : w.retry.2 = .finish r) : r = .ok () → Accounted g s d := by
  rcases hw : w.retry with ⟨state, request⟩
  unfold Attempted at h
  rw [hw] at h hretry
  cases hretry
  cases state
  all_goals exact h

end Consumer

end EventRelay
