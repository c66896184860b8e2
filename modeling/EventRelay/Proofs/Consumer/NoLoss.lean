import EventRelay.Proofs.Consumer.Custody

/-!
# No event is lost

Whatever fails, whoever is cancelled, and however often consumers are restarted: what was
acknowledged is accounted for, and what was not is still to be handed over or pending.

* `Rightful`: what every acknowledgement is.
* `Intact`: the invariant of runs; `intact_step`, `intact_of_reachable`: it holds in every run.
* `no_event_lost`: the property itself.
-/

namespace EventRelay

namespace Consumer

open Work

variable {g : Subscription} {rules : Rules} {s s' : Crew} {w : Worker} {d : Delivery}

/-- Whether an entry of a partition was acknowledged when it had these fields. -/
def Acked (acks : List Ack) (partition : Int) (entry : String) (fields : Fields) : Prop :=
  ⟨partition, entry, some fields⟩ ∈ acks

/-- An acknowledgement is right: it tells the truth about its entry, which is accounted for. -/
structure Rightful (g : Subscription) (s : Crew) (a : Ack) : Prop where
  /-- The entry has these fields, or it has been removed. -/
  told : (s.streams.named (g.stream a.partition)).Vouches (a.entry, a.fields)
  /-- It is accounted for, if there was anything to deliver. -/
  accounted : ∀ f fs, a.fields = some (f :: fs) →
    Accounted g s (.ofFields g.topic a.partition a.entry (f :: fs))

/-- An acknowledgement that is right stays so. -/
theorem Rightful.grow {a : Ack} (h : Rightful g s a) (hgrows : Grows g s s') :
    Rightful g s' a where
  told := h.told.evolve (hgrows.streams _)
  accounted f fs hfields := (h.accounted f fs hfields).grow hgrows

/-- What every run of consumers preserves. -/
structure Intact (g : Subscription) (rules : Rules) (s : Crew) : Prop where
  /-- Calls of the handler are right. -/
  handlers : Handler.Sound rules s.handlers
  /-- No stream of the topic loses an entry that is not acknowledged. -/
  keeps : ∀ partition, (s.streams.named (g.stream partition)).Keeps (Acked s.acks partition) g.group
  /-- Nothing is acknowledged that is not accounted for. -/
  acked : ∀ a ∈ s.acks, Rightful g s a
  /-- Consumers can be trusted. -/
  fit : ∀ w ∈ s.workers, Fit g s w

/-- A step is told by what it leaves of the tables and streams, and what it does that is new. -/
theorem Intact.advance (h : Intact g rules s) (hgrows : Grows g s s')
    (hhandlers : Handler.Sound rules s'.handlers)
    (hkeeps : ∀ partition,
      (s'.streams.named (g.stream partition)).Keeps (Acked s'.acks partition) g.group)
    (hacked : ∀ a ∈ s'.acks, a ∈ s.acks ∨ Rightful g s a)
    (hfit : ∀ w ∈ s'.workers, w ∈ s.workers ∨ Fit g s' w) : Intact g rules s' where
  handlers := hhandlers
  keeps := hkeeps
  acked a ha := by
    rcases hacked a ha with hold | hnew
    · exact (h.acked a hold).grow hgrows
    · exact hnew.grow hgrows
  fit w hw := by
    rcases hfit w hw with hold | hnew
    · exact (h.fit w hold).grow hgrows
    · exact hnew

/-- A step in which one consumer goes on and nothing else happens. -/
theorem Intact.goOn (h : Intact g rules s) {before after : List Worker} {w w' : Worker}
    (hw : s.workers = before ++ w :: after) (hfit : Fit g s w') :
    Intact g rules { s with workers := before ++ w' :: after } := by
  have hgrows : Grows g s { s with workers := before ++ w' :: after } := grows_of_same rfl rfl
  refine h.advance hgrows h.handlers h.keeps (fun a ha => .inl ha) fun x hx => ?_
  rcases mem_of_mem_replace hw hx with hold | rfl
  · exact .inl hold
  · exact .inr (hfit.grow hgrows)

/-- A step in which only the streams change. -/
theorem Intact.restream (h : Intact g rules s) {ss : Streams}
    (hevolves : ∀ name, (s.streams.named name).Evolves (g.HoldsLetters name) (ss.named name))
    (hkeeps : ∀ partition,
      (ss.named (g.stream partition)).Keeps (Acked s.acks partition) g.group) :
    Intact g rules { s with streams := ss } :=
  h.advance ⟨fun _ hkey => hkey, fun _ _ hhandles => hhandles, hevolves⟩ h.handlers hkeeps
    (fun _ ha => .inl ha) fun _ hw => .inl hw

/-- A step in which only what groups know of a stream changes. -/
theorem Intact.regroup (h : Intact g rules s) {name : String} {ss : Streams}
    (hregroups : Streams.Regroups name s.streams ss)
    (hkeeps : ∀ partition, name = g.stream partition →
      (ss.named name).Keeps (Acked s.acks partition) g.group) :
    Intact g rules { s with streams := ss } := by
  refine h.restream (fun other => hregroups.evolves other) fun partition => ?_
  by_cases hname : name = g.stream partition
  · rw [← hname]
    exact hkeeps partition hname
  · rw [hregroups.others (g.stream partition) hname]
    exact h.keeps partition

/-! ## Requests that are served -/

/-- Work on one stream leaves the others of the topic as they are. -/
theorem keeps_of_regroups (h : Intact g rules s) {partition : Int} {ss : Streams}
    {acks : List Ack} (hregroups : Streams.Regroups (g.stream partition) s.streams ss)
    (hacks : ∀ a ∈ s.acks, a ∈ acks)
    (hself : (ss.named (g.stream partition)).Keeps (Acked acks partition) g.group) :
    ∀ other, (ss.named (g.stream other)).Keeps (Acked acks other) g.group := by
  intro other
  by_cases hsame : partition = other
  · rw [← hsame]
    exact hself
  · rw [hregroups.others (g.stream other) fun hname => hsame (streamName_injective hname)]
    exact (h.keeps other).mono fun _ _ hacked => hacks _ hacked

/-- What comes of a request that is served. -/
structure WellServed (g : Subscription) (s : Crew) (w : Worker) (response : ConsumerResponse)
    (ss : Streams) (acks : List Ack) : Prop where
  /-- Only what the group knows of the stream has changed. -/
  regroups : Streams.Regroups (g.stream w.partition) s.streams ss
  /-- The stream loses no entry that is not acknowledged. -/
  keeps : (ss.named (g.stream w.partition)).Keeps (Acked (acks ++ s.acks) w.partition) g.group
  /-- Nothing is acknowledged that is not accounted for. -/
  acked : ∀ a ∈ acks, Rightful g s a
  /-- The consumer can be trusted with the response. -/
  fit : Fit g s (w.respond response)

/-- A consumer that can be trusted acknowledges what is accounted for. -/
theorem Intact.acknowledged (h : Intact g rules s) (hfit : Fit g s w) {entry : String}
    (hrequest : w.move.request = .acknowledge entry) :
    WellServed g s w .done (s.streams.acknowledge (g.stream w.partition) g.group entry)
      [w.ack entry] := by
  have hdone : Fit g s (w.respond .done) := hfit.done fun d hd => by
    rw [hrequest] at hd
    cases hd
  cases hfit.placed with
  | fetching source hstate hnone => exact absurd hrequest (hnone.2 entry)
  | handling source entry' f fs rest acked hstate hbatch hrequest' _ =>
    cases hrequest'.symm.trans hrequest
  | acking source entry' fields rest acked hstate hbatch hrequest' haccounted =>
    cases hrequest'.symm.trans hrequest
    have hack : w.ack entry = ⟨w.partition, entry, fields⟩ := by
      simp [Worker.ack, hbatch]
    have hvouched := hfit.vouched (entry, fields) (by simp [hbatch])
    have hsettled : ∀ e ∈ (s.streams.named (g.stream w.partition)).entries, e.id.text = entry →
        Acked ([w.ack entry] ++ s.acks) w.partition entry e.fields := by
      intro e he htext
      obtain ⟨id, hid, -, hfields⟩ := hvouched
      have hsame : e.id = id := EntryId.text_injective (htext.trans hid.symm)
      have hentry : fields = some e.fields := hfields e he hsame
      simp [Acked, hack, hentry]
    obtain ⟨hregroups, hkeeps⟩ := Streams.acknowledge_spec (h.keeps w.partition) entry
      (fun _ _ hacked => List.mem_append_right _ hacked) hsettled
    refine ⟨hregroups, hkeeps, fun a ha => ?_, hdone⟩
    rw [List.mem_singleton.mp ha, hack]
    exact ⟨hvouched, haccounted⟩
  | resting backlog hstate hnone => exact absurd hrequest (hnone.2 entry)

/-- Whatever the broker does about a request keeps streams and acknowledgements right. -/
theorem Intact.served (h : Intact g rules s) (hw : w ∈ s.workers) {response : ConsumerResponse}
    {ss : Streams} {acks : List Ack} (hserved : Served w s.streams response ss acks) :
    WellServed g s w response ss acks := by
  have hfit := h.fit w hw
  have hkeeps := h.keeps w.partition
  have hstream : w.stream = g.stream w.partition := by
    unfold Worker.stream ConsumerConfig.stream Subscription.stream
    rw [hfit.topic]
  cases hserved with
  | @readOwn entries hrequest hread =>
    rw [hstream, hfit.group] at hread
    have hvouches := Streams.readOwn_spec hkeeps hread
    exact ⟨Streams.regroups_refl _ _, hkeeps, by simp,
      hfit.batch (by simp [hrequest]) (by simp [hrequest]) hvouches⟩
  | @readNew now entries ss hrequest hread =>
    rw [hstream, hfit.group] at hread
    obtain ⟨hregroups, hkept, hvouches⟩ := Streams.readNew_spec hkeeps hread
    exact ⟨hregroups, hkept, by simp,
      hfit.batch (by simp [hrequest]) (by simp [hrequest]) hvouches⟩
  | @takeOver now entries ss hrequest hread =>
    rw [hstream, hfit.group] at hread
    obtain ⟨hregroups, hkept, hvouches⟩ := Streams.takeOver_spec hkeeps hread
    refine ⟨hregroups, hkept, by simp,
      hfit.batch (by simp [hrequest]) (by simp [hrequest]) fun x hx => ?_⟩
    obtain ⟨y, hy, rfl⟩ := List.mem_map.mp hx
    exact hvouches y hy
  | @acknowledge entry hrequest =>
    rw [hstream, hfit.group]
    exact h.acknowledged hfit hrequest
  | rest hrequest =>
    exact ⟨Streams.regroups_refl _ _, hkeeps, by simp,
      hfit.done fun d hd => by simp [hrequest] at hd⟩

/-- A request is served, whatever the consumer gets to know of it. -/
theorem Intact.serve (h : Intact g rules s) {before after : List Worker}
    (hw : s.workers = before ++ w :: after) {response : ConsumerResponse} {ss : Streams}
    {acks : List Ack} (hserved : Served w s.streams response ss acks) {w' : Worker}
    (hfit : Fit g s (w.respond response) → Fit g s w') :
    Intact g rules
      { s with streams := ss, workers := before ++ w' :: after, acks := acks ++ s.acks } := by
  have hmem : w ∈ s.workers := by simp [hw]
  have hwell := h.served hmem hserved
  have hgrows : Grows g s
      { s with streams := ss, workers := before ++ w' :: after, acks := acks ++ s.acks } :=
    ⟨fun _ hkey => hkey, fun _ _ hhandles => hhandles, fun name => hwell.regroups.evolves name⟩
  refine h.advance hgrows h.handlers ?_ ?_ ?_
  · exact keeps_of_regroups h hwell.regroups (fun a ha => List.mem_append_right _ ha) hwell.keeps
  · intro a ha
    rcases List.mem_append.mp ha with ha | ha
    · exact .inr (hwell.acked a ha)
    · exact .inl ha
  · intro x hx
    rcases mem_of_mem_replace hw hx with hold | rfl
    · exact .inl hold
    · exact .inr ((hfit hwell.fit).grow hgrows)

/-! ## Every step -/

/-- Calls of the handler go on. -/
theorem Intact.handle (h : Intact g rules s) {handlers : Handlers}
    (hstep : Handler.Step rules s.handlers handlers) : Intact g rules { s with handlers } := by
  have hgrows : Grows g s { s with handlers } := by
    refine ⟨fun key => ?_, fun number d => ?_, fun _ => Stream.evolves_of_same rfl rfl⟩
    · exact Handler.isRecorded_step h.handlers hstep
    · exact Handler.handles_step hstep
  exact h.advance hgrows (Handler.sound_step h.handlers hstep) h.keeps (fun _ ha => .inl ha)
    fun _ hw => .inl hw

/-- A delivery whose call went well is recorded. -/
theorem accounted_of_ended (hfaithful : Handler.Faithful rules) (h : Intact g rules s)
    (hattempted : Attempted g s w d) (hretry : w.retry.2 = .call) {e : Handler.Ended}
    (he : e ∈ s.handlers.ended) (hcall : w.call = some e.number)
    (hresult : e.result.map (fun _ => ()) = .ok ()) : Accounted g s d := by
  obtain ⟨-, -, hhandles⟩ := hattempted.of_call hretry
  have hdelivery : e.delivery = d := (hhandles e.number hcall).2.2 e he rfl
  rcases hended : e.result with _ | outcome
  · simp [hended, Except.map] at hresult
  · left
    rw [← hdelivery]
    exact h.handlers.recorded e he outcome hended fun _ => hfaithful

/-- Every step preserves what runs preserve. -/
theorem intact_step (hfaithful : Handler.Faithful rules) (h : Intact g rules s)
    (hstep : Step g rules s s') : Intact g rules s' := by
  cases hstep with
  | join config partition legacy policy broker htopic hgroup =>
    refine h.advance (grows_of_same rfl rfl) h.handlers h.keeps (fun _ ha => .inl ha)
      fun x hx => ?_
    rcases List.mem_append.mp hx with hx | hx
    · exact .inl hx
    · rw [List.mem_singleton.mp hx]
      exact .inr ⟨htopic, hgroup, by simp [Worker.fresh], placed_fetch .backlog rfl rfl⟩
  | @leave before after w hw =>
    exact h.advance (grows_of_same rfl rfl) h.handlers h.keeps (fun _ ha => .inl ha)
      fun x hx => .inl (mem_of_mem_remove hw hx)
  | serve hw hserved => exact h.serve hw hserved id
  | @lose before after w hw response ss acks hserved e =>
    have hfit : Fit g s w := h.fit w (by simp [hw])
    exact h.serve hw hserved fun _ => hfit.failed e
  | @fail before after w hw hrequest e =>
    have hfit : Fit g s w := h.fit w (by simp [hw])
    exact h.goOn hw (hfit.failed e)
  | @call before after w hw d hrequest hretry hcall session hstored hstaged hscript =>
    have hbegun := h.handle (.begin s.handlers w.legacy d session hstored hstaged hscript)
    have hfit : Fit g _ w := hbegun.fit w (by simp [hw])
    obtain ⟨hattempted, -⟩ := hfit.attempted hrequest
    refine hbegun.goOn hw (hfit.withRetry hrequest (hattempted.begun hretry ?_))
    exact Handler.handles_begin h.handlers w.legacy d session
  | @called before after w hw d hrequest hretry e he hcall =>
    have hfit : Fit g s w := h.fit w (by simp [hw])
    obtain ⟨hattempted, -⟩ := hfit.attempted hrequest
    refine h.goOn hw (hfit.withRetry hrequest (hattempted.called hretry fun hresult => ?_))
    exact accounted_of_ended hfaithful h hattempted hretry he hcall hresult
  | @rested before after w hw d hrequest n hretry r hr =>
    have hfit : Fit g s w := h.fit w (by simp [hw])
    obtain ⟨hattempted, -⟩ := hfit.attempted hrequest
    exact h.goOn hw (hfit.withRetry hrequest (hattempted.rested hretry r))
  | @sent before after w hw d hrequest m hretry partition hp now r =>
    have hsent : Intact g rules
        { s with streams := (w.broker.accept m partition now s.streams).2 } :=
      h.restream (fun other => Streams.evolves_append _ _ _ _ _ _ _)
        fun partition => Streams.keeps_append _ _ _ _ _ _ _ (h.keeps partition)
    have hfit : Fit g _ w := hsent.fit w (by simp [hw])
    obtain ⟨hattempted, htopic⟩ := hfit.attempted hrequest
    refine hsent.goOn hw (hfit.withRetry hrequest (hattempted.sent hretry fun _ => ?_))
    obtain ⟨cause, -, rfl⟩ := hattempted.of_send hretry
    exact accounted_of_sent htopic w.broker w.policy cause partition now
  | @unsent before after w hw d hrequest m hretry e =>
    have hfit : Fit g s w := h.fit w (by simp [hw])
    obtain ⟨hattempted, -⟩ := hfit.attempted hrequest
    exact h.goOn hw (hfit.withRetry hrequest (hattempted.sent hretry nofun))
  | @returned before after w hw d hrequest r hretry =>
    have hfit : Fit g s w := h.fit w (by simp [hw])
    obtain ⟨hattempted, -⟩ := hfit.attempted hrequest
    rcases r with e | _
    · exact h.goOn hw (hfit.failed e)
    · refine h.goOn hw (hfit.done fun d' hd' => ?_)
      cases hrequest.symm.trans hd'
      exact hattempted.finished hretry rfl
  | handlers hstep => exact h.handle hstep
  | post name now fields maxlen approximate =>
    exact h.restream (fun other => Streams.evolves_append _ _ _ _ _ _ _)
      fun partition => Streams.keeps_append _ _ _ _ _ _ _ (h.keeps partition)
  | remove name id hname =>
    refine h.restream (fun other => Streams.evolves_erase _ _ _ _ fun hsame hletters => ?_)
      fun partition => Streams.keeps_erase (h.keeps partition) name id
    exact hname (hsame ▸ hletters)
  | @createGroup name group ss hcreate =>
    obtain ⟨hregroups, hkeeps⟩ := Streams.createGroup_spec hcreate
    refine h.regroup hregroups fun partition hname => ?_
    subst hname
    exact hkeeps _ _ (h.keeps partition)
  | @regroup name groups hsame =>
    refine h.regroup (Streams.regroups_withGroups _ _ _) fun partition hname => ?_
    subst hname
    rw [Streams.named_withGroups]
    exact (h.keeps partition).regroup (hsame partition rfl)

/-- It holds in every state of a run. -/
theorem intact_of_reachable (hfaithful : Handler.Faithful rules) (h : Reachable g rules s) :
    Intact g rules s := by
  induction h with
  | start stored =>
    refine ⟨Handler.sound_of_reachable (.start stored), fun partition => ?_, by simp, by simp⟩
    exact Stream.keeps_empty _
  | step _ hstep ih => exact intact_step hfaithful ih hstep

/-- No event is lost.  What an acknowledgement tells of its entry is true, and if there was anything
to deliver, that is accounted for: the ledger has its key, or a dead letter has its payload and
tells where it came from.  An entry that was not acknowledged is still to be handed to the group, or
pending.

Nobody removes a dead letter in these runs.  Where the broker is told to trim the streams of dead
letters to some length, the account of an entry that was given up lasts as long as its letter; it is
complete when the entry is acknowledged. -/
theorem no_event_lost (hfaithful : Handler.Faithful rules) (h : Reachable g rules s) :
    (∀ a ∈ s.acks,
      (∀ e ∈ s.streams.entriesOf (g.stream a.partition), e.id.text = a.entry →
        a.fields = some e.fields) ∧
      ∀ fields, a.fields = some fields → fields ≠ [] →
        Accounted g s (.ofFields g.topic a.partition a.entry fields)) ∧
    ∀ partition group, (s.streams.named (g.stream partition)).group? g.group = some group →
      ∀ e ∈ s.streams.entriesOf (g.stream partition),
        group.last.lt e.id = true ∨ (∃ p ∈ group.pending, p.id = e.id) ∨
          (⟨partition, e.id.text, some e.fields⟩ : Ack) ∈ s.acks := by
  have hintact := intact_of_reachable hfaithful h
  constructor
  · intro a ha
    have hright := hintact.acked a ha
    constructor
    · intro e he htext
      obtain ⟨id, hid, -, hfields⟩ := hright.told
      rw [Streams.entriesOf_eq] at he
      exact hfields e he (EntryId.text_injective (htext.trans hid.symm))
    · intro fields hfields hne
      rcases fields with _ | ⟨f, fs⟩
      · exact absurd rfl hne
      · exact hright.accounted f fs hfields
  · intro partition group hgroup e he
    rw [Streams.entriesOf_eq] at he
    exact (hintact.keeps partition).stands group hgroup e he

/-! ## A run -/

/-- What the only consumer does about its run with retries, if nothing fails. -/
def tickRetry (g : Subscription) (s : Crew) (w : Worker) (d : Delivery) : Crew :=
  match w.retry.2, w.call with
  | .call, none =>
    { s with
      handlers := Handler.begin s.handlers w.legacy d (Handler.opened s.handlers.stored .none)
      workers := [{ w with call := some s.handlers.count }] }
  | .call, some number =>
    match s.handlers.ended.find? (·.number = number) with
    | some e => { s with workers := [w.retried g.ending d (e.result.map fun _ => ())] }
    | none =>
      if s.handlers.running.length = 1 then { s with handlers := Handler.goOn s.handlers } else s
  | .rest _, _ => { s with workers := [w.retried g.ending d (.ok ())] }
  | .send m, _ =>
    match partitionFor m.key w.broker.partitions with
    | .ok partition =>
      { s with
        streams := (w.broker.accept m partition .origin s.streams).2
        workers := [w.retried g.ending d (.ok ())] }
    | .error e => { s with workers := [w.retried g.ending d (.error e)] }
  | .finish r, _ => { s with workers := [w.respond (responseOf r)] }

/-- What the only consumer does next, if nothing fails. -/
def tick (g : Subscription) (s : Crew) : Crew :=
  match s.workers with
  | [w] =>
    match w.move.request with
    | .readOwn =>
      match s.streams.readOwn w.stream w.config.group w.config.name w.config.batch.toNat with
      | .ok entries => { s with workers := [w.respond (.batch entries)] }
      | .error _ => s
    | .readNew =>
      match s.streams.readNew w.stream w.config.group w.config.name w.config.batch.toNat
        .origin with
      | .ok (entries, streams) =>
        { s with streams, workers := [w.respond (.batch entries)] }
      | .error _ => s
    | .takeOver =>
      match s.streams.takeOver w.stream w.config.group w.config.name w.config.idleMs
        w.config.batch.toNat .origin with
      | .ok (entries, streams) =>
        { s with
          streams
          workers := [w.respond (.batch (entries.map fun (id, fields) => (id, some fields)))] }
      | .error _ => s
    | .acknowledge entry =>
      { s with
        streams := s.streams.acknowledge w.stream w.config.group entry
        workers := [w.respond .done]
        acks := w.ack entry :: s.acks }
    | .rest => { s with workers := [w.respond .done] }
    | .handle d => tickRetry g s w d
    | .finish _ => s
  | _ => s

/-- What the only consumer does about its retries is a run. -/
theorem reachable_tickRetry (h : Reachable g rules s) (hw : s.workers = [w])
    (hrequest : w.move.request = .handle d) : Reachable g rules (tickRetry g s w d) := by
  have hsplit : s.workers = [] ++ w :: [] := hw
  unfold tickRetry
  split
  · rename_i hretry hcall
    exact .step h (.call s hsplit hrequest hretry hcall _ rfl rfl DbScript.within_none)
  · rename_i number hretry hcall
    split
    · rename_i e hfind
      have hnumber : e.number = number := by simpa using List.find?_some hfind
      rw [← hnumber] at hcall
      exact .step h (.called s hsplit hrequest hretry (List.mem_of_find?_eq_some hfind) hcall)
    · split
      · rename_i hone
        obtain ⟨c, hc⟩ := List.length_eq_one_iff.mp hone
        refine .step h (.handlers s (Handler.step_goOn (by simp [hc]) ?_))
        simp [hc, Handler.Unblocked]
      · exact h
  · rename_i n hretry
    exact .step h (.rested s hsplit hrequest hretry nofun)
  · rename_i m hretry
    split
    · rename_i partition hp
      exact .step h (.sent s hsplit hrequest hretry hp .origin (.ok ()))
    · rename_i e hp
      exact .step h (.unsent s hsplit hrequest hretry e)
  · rename_i r hretry
    exact .step h (.returned s hsplit hrequest hretry)

/-- What the only consumer does next is a run. -/
theorem reachable_tick (h : Reachable g rules s) : Reachable g rules (tick g s) := by
  unfold tick
  split
  · rename_i w hw
    have hsplit : s.workers = [] ++ w :: [] := hw
    split
    · rename_i hrequest
      split
      · rename_i entries hread
        exact .step h (.serve s hsplit (.readOwn hrequest hread))
      · exact h
    · rename_i hrequest
      split
      · rename_i entries streams hread
        exact .step h (.serve s hsplit (.readNew hrequest hread))
      · exact h
    · rename_i hrequest
      split
      · rename_i entries streams hread
        exact .step h (.serve s hsplit (.takeOver hrequest hread))
      · exact h
    · rename_i entry hrequest
      exact .step h (.serve s hsplit (.acknowledge hrequest))
    · rename_i hrequest
      exact .step h (.serve s hsplit (.rest hrequest))
    · rename_i d hrequest
      exact reachable_tickRetry h hw hrequest
    · exact h
  · exact h

/-- So many ticks. -/
def ticks (g : Subscription) : Nat → Crew → Crew
  | 0, s => s
  | n + 1, s => ticks g n (tick g s)

/-- So are many of these ticks. -/
theorem reachable_ticks (h : Reachable g rules s) (n : Nat) : Reachable g rules (ticks g n s) := by
  induction n generalizing s with
  | zero => exact h
  | succ n ih => exact ih (reachable_tick h)

/-- Consumers of user events. -/
def userEvents : Subscription := ⟨"user-events", "tasks", ".DLT"⟩

/-- One of them, which does not accept free text and tries once. -/
def reader : Worker :=
  .fresh ⟨"user-events", "tasks", "reader", 1, 10, 1000, 60000⟩ 0 false ⟨1, ⟨0, 1⟩⟩ ⟨1, none⟩

/-- An entry that the handler cannot read, and one that it can. -/
def twoEntries : List Fields :=
  [[("payload", "user.deleted (7)")],
    [("payload", "\x7b\"eventType\":\"user.deleted\",\"userId\":7\x7d")]]

/-- The entries are there, and the consumer has started. -/
def ready : Crew where
  handlers := ⟨Handler.twoTasks, [], [], 0⟩
  streams := twoEntries.foldl
    (fun ss fields => (ss.append "user-events:0" .origin fields none false).2)
    [⟨"user-events:0", [], .zero, [⟨"tasks", .zero, []⟩]⟩]
  workers := [reader]
  acks := []

/-- The beginning of the run is one. -/
theorem reachable_ready : Reachable userEvents rules ready := by
  have hstart : Reachable userEvents rules ⟨⟨Handler.twoTasks, [], [], 0⟩, [], [], []⟩ := .start _
  have hcreate : Streams.createGroup [] "user-events:0" "tasks" =
      .ok [⟨"user-events:0", [], .zero, [⟨"tasks", .zero, []⟩]⟩] := rfl
  have hgroup := hstart.step (.createGroup _ hcreate)
  have hone := hgroup.step (.post _ "user-events:0" .origin twoEntries[0] none false)
  have htwo := hone.step (.post _ "user-events:0" .origin twoEntries[1] none false)
  exact htwo.step (.join _ reader.config 0 false reader.policy reader.broker rfl rfl)

/-- Both entries are read: the first one is given up, the second one is done. -/
def readBoth : Crew := ticks userEvents 14 ready

/-- The entry that was handled is recorded, and the other one has a dead letter. -/
theorem no_event_lost_of_readBoth :
    Handler.Faithful Handler.orderly ∧ Reachable userEvents Handler.orderly readBoth ∧
      readBoth.acks.map (·.entry) = ["1000000-1", "1000000-0"] ∧
      readBoth.handlers.stored.ledger.map (·.eventKey) = ["user-events-0-1000000-1"] ∧
      ∀ a ∈ readBoth.acks, ∀ fields, a.fields = some fields → fields ≠ [] →
        Accounted userEvents readBoth (.ofFields "user-events" a.partition a.entry fields) := by
  have hreach : Reachable userEvents Handler.orderly readBoth := reachable_ticks reachable_ready 14
  exact ⟨Handler.faithful_orderly, hreach, by decide +kernel, by decide +kernel,
    fun a ha => ((no_event_lost Handler.faithful_orderly hreach).1 a ha).2⟩

end Consumer

end EventRelay
