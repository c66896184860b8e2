import EventRelay.Proofs.Handler.Ends
import EventRelay.Proofs.Shifts.Order

/-!
# Effects in the order of a partition

The handler of user events as the callback of a consumer that is alone in its group.  An entry is
acknowledged only after the call that handled it has recorded it, so its effect is committed by
then, once, and before that of any later entry of its partition.

* `handling`: the handler as a callback.
* `Effective`: the invariant of such runs; `effective_step`, `effective_of_reachable`: it holds in
  every run.
-/

namespace EventRelay

namespace Shifts

open Consumer Handler Work

/-- The handler of user events as a callback, where operations of the database follow the rules. -/
def handling (rules : Work.Rules) : Callback Handlers where
  begins s d number s' := ∃ legacy session, session.stored = s.stored ∧
    session.staged = session.stored ∧ session.script.Within rules.allowed ∧ number = s.count ∧
    s' = Handler.begin s legacy d session
  goesOn s s' := Handler.Step rules s s' ∧ s'.count = s.count
  returned s number := ∃ e ∈ s.ended, e.number = number ∧ ∃ outcome, e.result = .ok outcome

variable {rules : Work.Rules} {m : Member} {stored : Database} {s s' : Shifts Handlers}
  {partition : Int} {history history' : List Event} {world world' : Handlers} {w w' : Worker}
  {d d' : Delivery} {entry : String}

/-! ## What is known of entries and calls -/

/-- An entry was dispatched, and its effect is recorded. -/
def Applied (world : Handlers) (history : List Event) (entry : String) : Prop :=
  ∃ d, .dispatched d ∈ history ∧ d.offset = entry ∧
    world.stored.isRecorded d.eventKey = true

/-- What a worker knows of its callback: the call that is under way handles its delivery, and one
that has returned left a record. -/
structure Informed (world : Handlers) (history : List Event) (w : Worker) : Prop where
  /-- The call under way handles the delivery. -/
  called : ∀ d number, w.move.request = .handle d → w.call = some number →
    Handler.Handles world number d
  /-- What it is about to acknowledge is recorded. -/
  returned : ∀ entry d, w.move.request = .acknowledge entry →
    lastTurn? history = some (.dispatched d) → world.stored.isRecorded d.eventKey = true

/-- The entry of the first call has its place behind the entry of the second one in their stream, if
they have one stream and both were processed. -/
def Follows (history : Int → List Event) (e e' : Ended) : Prop :=
  e.result = .ok .processed → e'.result = .ok .processed →
    e.delivery.partition = e'.delivery.partition →
    ∀ id id' : EntryId, e.delivery.offset = id.text → e'.delivery.offset = id'.text →
      .removed id.text ∈ history e.delivery.partition ∨ id'.lt id = true

/-- What holds of effects at any time. -/
structure Effective (rules : Work.Rules) (stored : Database) (s : Shifts Handlers) : Prop where
  /-- Calls are right. -/
  sound : Sound rules s.world
  /-- Records have their calls. -/
  traced : Traced stored s.world
  /-- A call under way handles an entry that was dispatched. -/
  running : ∀ c ∈ s.world.running, .dispatched c.delivery ∈ s.history c.delivery.partition
  /-- So did a call that has ended. -/
  ended : ∀ e ∈ s.world.ended, .dispatched e.delivery ∈ s.history e.delivery.partition
  /-- Workers know what is true of their callbacks. -/
  informed : ∀ partition w, s.worker partition = some w →
    Informed s.world (s.history partition) w
  /-- What is acknowledged is applied, unless it was removed. -/
  applied : ∀ partition entry, .acknowledged entry ∈ s.history partition →
    .removed entry ∈ s.history partition ∨ Applied s.world (s.history partition) entry
  /-- Effects are in the order of the stream; the latest call is first. -/
  ordered : s.world.ended.Pairwise (Follows s.history)

/-- What was applied stays so. -/
theorem Applied.grow (h : Applied world history entry) (hsub : ∀ x ∈ history, x ∈ history')
    (hrecorded : ∀ key, world.stored.isRecorded key = true → world'.stored.isRecorded key = true) :
    Applied world' history' entry := by
  obtain ⟨d, hd, hoffset, hkey⟩ := h
  exact ⟨d, hsub _ hd, hoffset, hrecorded _ hkey⟩

/-- A worker that neither has a call under way nor is about to acknowledge anything. -/
theorem informed_of_idle (hcalled : ∀ d, w.move.request = .handle d → w.call = none)
    (hreturned : ∀ entry, w.move.request = .acknowledge entry → HandsFree history) :
    Informed world history w where
  called d number hrequest hcall := by
    cases (hcalled d hrequest).symm.trans hcall
  returned entry d hrequest hlast := absurd hlast (hreturned entry hrequest d)

/-- A worker that was cancelled asks for nothing. -/
theorem informed_of_failed (w : Worker) {e : Failure} (he : e.isCancellation = true) :
    Informed world history (w.respond (.failed e)) := by
  refine informed_of_idle (fun _ _ => rfl) fun entry hrequest => ?_
  cases (request_failed w he).symm.trans hrequest

/-- What was dispatched on a partition is an entry of its stream. -/
theorem InCourse.of_dispatched (h : InCourse m s) (hd : .dispatched d ∈ s.history partition) :
    ∃ id fields, .appended id fields ∈ s.history partition ∧
      d = .ofFields m.topic partition id.text fields := by
  obtain ⟨later, earlier, hsplit⟩ := List.append_of_mem hd
  have hturn := inTurn_of_orderly (h partition).orderly
  obtain ⟨id, fields, hlisted, hsame, -⟩ := hturn.dispatched later d earlier hsplit
  refine ⟨id, fields, ?_, hsame⟩
  rw [hsplit]
  exact List.mem_append_right _ (List.mem_cons_of_mem _ hlisted)

/-- On a partition the key of an entry that was dispatched is known from its identifier. -/
theorem InCourse.eventKey_eq (h : InCourse m s) (hd : .dispatched d ∈ s.history partition)
    (hd' : .dispatched d' ∈ s.history partition) (hoffset : d.offset = d'.offset) :
    d.eventKey = d'.eventKey := by
  obtain ⟨id, fields, -, rfl⟩ := h.of_dispatched hd
  obtain ⟨id', fields', -, rfl⟩ := h.of_dispatched hd'
  change id.text = id'.text at hoffset
  unfold Delivery.eventKey Delivery.ofFields
  dsimp only
  rw [hoffset]

/-- A worker knows of its callback whatever others do. -/
theorem Informed.grow (h : Informed world history w) {e : Event} (he : e.isTurn = false) :
    Informed world (e :: history) w where
  called := h.called
  returned entry d hrequest hlast :=
    h.returned entry d hrequest (by rwa [lastTurn?_of_not_turn he] at hlast)

/-! ## Steps -/

/-- A step that leaves the calls alone is told by what it does on one partition. -/
theorem Effective.advance (h : Effective rules stored s) (hworld : s'.world = s.world)
    {worker : Option Worker} {events : List Event}
    (hworker : s'.worker = Function.update s.worker partition worker)
    (hhistory : s'.history =
      Function.update s.history partition (events ++ s.history partition))
    (hinformed : ∀ w, worker = some w → Informed s.world (events ++ s.history partition) w)
    (happlied : ∀ entry, .acknowledged entry ∈ events →
      .removed entry ∈ s.history partition ∨ Applied s.world (s.history partition) entry) :
    Effective rules stored s' := by
  have hgrows : ∀ p, ∀ x ∈ s.history p, x ∈ s'.history p := by
    intro p x hx
    rw [hhistory]
    by_cases hp : p = partition
    · rw [hp, Function.update_self]
      exact List.mem_append_right _ (hp ▸ hx)
    · rwa [Function.update_of_ne hp]
  constructor
  case sound => exact hworld ▸ h.sound
  case traced => exact hworld ▸ h.traced
  case running => exact fun c hc => hgrows _ _ (h.running c (hworld ▸ hc))
  case ended => exact fun e he => hgrows _ _ (h.ended e (hworld ▸ he))
  case informed =>
    intro p w hw
    rw [hworld, hhistory]
    rw [hworker] at hw
    by_cases hp : p = partition
    · rw [hp, Function.update_self] at hw ⊢
      exact hinformed w hw
    · rw [Function.update_of_ne hp] at hw ⊢
      exact h.informed p w hw
  case applied =>
    intro p entry hacked
    rw [hworld]
    have hold : ∀ {entry}, .removed entry ∈ s.history p ∨ Applied s.world (s.history p) entry →
        .removed entry ∈ s'.history p ∨ Applied s.world (s'.history p) entry := fun hdone =>
      hdone.imp (hgrows p _) fun happ => happ.grow (hgrows p) fun _ => id
    rw [hhistory] at hacked
    by_cases hp : p = partition
    · subst hp
      rw [Function.update_self] at hacked
      rcases List.mem_append.mp hacked with hnew | hacked
      · exact hold (happlied entry hnew)
      · exact hold (h.applied p entry hacked)
    · rw [Function.update_of_ne hp] at hacked
      exact hold (h.applied p entry hacked)
  case ordered =>
    rw [hworld]
    exact h.ordered.imp fun hfollows hr hr' hp id id' hid hid' =>
      (hfollows hr hr' hp id id' hid hid').imp_left (hgrows _ _)

/-- Only a worker changes. -/
theorem Effective.put (h : Effective rules stored s) (hworld : s'.world = s.world)
    {worker : Option Worker}
    (hworker : s'.worker = Function.update s.worker partition worker)
    (hhistory : s'.history = s.history)
    (hinformed : ∀ w, worker = some w → Informed s.world (s.history partition) w) :
    Effective rules stored s' := by
  have hnothing : s'.history =
      Function.update s.history partition ([] ++ s.history partition) :=
    hhistory.trans (Function.update_eq_self _ _).symm
  exact h.advance hworld hworker hnothing hinformed
    fun _ hentry => absurd hentry List.not_mem_nil

/-- A call that processes its delivery has its place behind those that have done so. -/
theorem Effective.follows (h : Effective rules stored s) (hcourse : InCourse m s) {e e' : Ended}
    (he : .dispatched e.delivery ∈ s.history e.delivery.partition) (he' : e' ∈ s.world.ended)
    (hnew : s.world.stored.isRecorded e.delivery.eventKey = false) : Follows s.history e e' := by
  intro hresult hresult' hpartition id id' hid hid'
  have hdispatched := h.ended e' he'
  rw [← hpartition] at hdispatched
  rcases EntryId.eq_or_lt_or_lt id id' with rfl | hlt | hlt
  · -- its entry would have been recorded by the other call
    have hrecorded := h.sound.recorded e' he' _ hresult' fun hsame => by cases hsame
    rw [← hcourse.eventKey_eq he hdispatched (hid.trans hid'.symm), hnew] at hrecorded
    cases hrecorded
  · -- its entry was acknowledged before that of the other call was dispatched
    obtain ⟨id₀, fields, hlisted, hd⟩ := hcourse.of_dispatched he
    obtain rfl : id₀ = id := EntryId.text_injective (by rw [← hid, hd]; rfl)
    obtain ⟨later, earlier, hsplit⟩ := List.append_of_mem hdispatched
    have hturn := inTurn_of_orderly (hcourse e.delivery.partition).orderly
    obtain ⟨id₁, fields₁, -, hd₁, hcleared⟩ := hturn.dispatched later _ earlier hsplit
    obtain rfl : id₁ = id' := EntryId.text_injective (by rw [← hid', hd₁]; rfl)
    have hearlier : ∀ x ∈ earlier, x ∈ s.history e.delivery.partition := fun x hx => by
      rw [hsplit]
      exact List.mem_append_right _ (List.mem_cons_of_mem _ hx)
    rcases hcleared id₀ fields hlisted hlt with hacked | hremoved
    · rcases h.applied _ _ (hearlier _ hacked) with hremoved | ⟨d, hd', hoffset, hrecorded⟩
      · exact .inl hremoved
      · rw [hcourse.eventKey_eq hd' he (hoffset.trans hid.symm), hnew] at hrecorded
        cases hrecorded
    · exact .inl (hearlier _ hremoved)
  · exact .inr hlt

/-- A step of the handler keeps the order in which calls were processed. -/
theorem Effective.ordered_step (h : Effective rules stored s) (hcourse : InCourse m s)
    (hstep : Handler.Step rules s.world world) : world.ended.Pairwise (Follows s.history) := by
  cases ending_of_step h.sound hstep with
  | none hended _ => exact hended ▸ h.ordered
  | one e hended hdelivery hentered =>
    rw [hended]
    refine List.pairwise_cons.mpr ⟨fun e' he' => ?_, h.ordered⟩
    cases hentered with
    | recorded _ hnew _ _ _ =>
      obtain ⟨c, hc, hsame⟩ := hdelivery
      exact h.follows hcourse (hsame ▸ h.running c hc) he' hnew
    | nothing hresult _ => exact fun hprocessed => absurd hprocessed hresult

/-- A step among the calls, which handle entries that were dispatched. -/
theorem Effective.goOn (h : Effective rules stored s) (hstep : Handler.Step rules s.world world)
    (hrunning : ∀ c ∈ world.running, .dispatched c.delivery ∈ s.history c.delivery.partition)
    (hordered : world.ended.Pairwise (Follows s.history)) :
    Effective rules stored { s with world } := by
  have hrecorded : ∀ key, s.world.stored.isRecorded key = true →
      world.stored.isRecorded key = true := fun _ => isRecorded_step h.sound hstep
  constructor
  case sound => exact sound_step h.sound hstep
  case traced => exact traced_step h.sound hstep h.traced
  case running => exact hrunning
  case ordered => exact hordered
  case ended =>
    intro e he
    change e ∈ world.ended at he
    cases ending_of_step h.sound hstep with
    | none hended _ => exact h.ended e (hended ▸ he)
    | one e' hended hdelivery _ =>
      rw [hended] at he
      rcases List.mem_cons.mp he with rfl | he
      · obtain ⟨c, hc, hsame⟩ := hdelivery
        exact hsame ▸ h.running c hc
      · exact h.ended e he
  case informed =>
    intro p w hw
    have hinformed := h.informed p w hw
    constructor
    case called =>
      exact fun d number hrequest hcall =>
        handles_step hstep (hinformed.called d number hrequest hcall)
    case returned =>
      exact fun entry d hrequest hlast => hrecorded _ (hinformed.returned entry d hrequest hlast)
  case applied =>
    exact fun p entry hacked => (h.applied p entry hacked).imp_right
      fun happ => happ.grow (fun _ => id) hrecorded

/-- A command of the broker is done; an acknowledgement settles what is recorded. -/
theorem Effective.serve (h : Effective rules stored s) (hinCourse : InCourse m s)
    (hw : s.worker partition = some w)
    {response : ConsumerResponse} {ss : Streams} {acks : List Ack}
    (hserved : Served w s.streams response ss acks)
    (hw' : w' = w.respond response ∨
      ∃ e : Failure, e.isCancellation = true ∧ w' = w.respond (.failed e)) :
    Effective rules stored
      { (s.put partition (some w')).note partition (eventsOf acks) with streams := ss } := by
  have hcourse := hinCourse partition
  rw [hw] at hcourse
  refine h.advance rfl rfl rfl ?_ ?_
  · intro w'' hsame
    cases hsame
    rcases hw' with rfl | ⟨e, he, rfl⟩
    · exact informed_of_idle (fun _ _ => rfl) fun _ _ => hcourse.handsFree_of_served hserved
    · exact informed_of_failed w he
  · intro entry hentry
    have hrequest := request_of_served hserved hentry
    obtain ⟨source, fields, rest, acked, -, -, -, hturn⟩ := (hcourse.duty w rfl).asks hrequest
    rcases hturn with ⟨d, hlast, hoffset⟩ | ⟨-, hremoved⟩
    · have hrecorded := (h.informed partition w hw).returned entry d hrequest hlast
      exact .inr ⟨d, List.mem_of_find?_eq_some hlast, hoffset, hrecorded⟩
    · exact .inl hremoved

/-- A delivery is given to the handler: that is noted, and a call begins for which the worker
waits. -/
theorem Effective.dispatch (h : Effective rules stored s) (hcourse : InCourse m s)
    (hw : s.worker partition = some w) (hrequest : w.move.request = .handle d)
    (hcall : w.call = none) {number : Nat}
    (hbegins : (handling rules).begins s.world d number world) :
    Effective rules stored
      { (s.put partition (some { w with call := some number })).note partition [.dispatched d] with
        world } := by
  obtain ⟨legacy, session, hstored, hstaged, hscript, rfl, rfl⟩ := hbegins
  obtain ⟨_, _, _, _, _, _, _, _, hd, -, -⟩ := ((hcourse partition).duty w hw).asks hrequest
  have hnoted : Effective rules stored (s.note partition [.dispatched d]) := by
    refine h.advance rfl (Function.update_eq_self partition s.worker).symm rfl (fun w' hw' => ?_)
      fun _ hentry => by cases List.mem_singleton.mp hentry
    cases hw.symm.trans hw'
    refine informed_of_idle (fun _ _ => hcall) fun entry hrequest' => ?_
    cases hrequest.symm.trans hrequest'
  have hdispatched : .dispatched d ∈ (s.note partition [.dispatched d]).history d.partition := by
    have hplace : d.partition = partition := by rw [hd]; rfl
    change _ ∈
      Function.update s.history partition (.dispatched d :: s.history partition) d.partition
    rw [hplace, Function.update_self]
    exact List.mem_cons_self
  have hrunning : ∀ c ∈ (Handler.begin s.world legacy d session).running,
      .dispatched c.delivery ∈
        (s.note partition [.dispatched d]).history c.delivery.partition := by
    intro c hc
    rcases List.mem_append.mp hc with hc | hc
    · exact hnoted.running c hc
    · rw [List.mem_singleton.mp hc]
      exact hdispatched
  have hbegun := hnoted.goOn (.begin s.world legacy d session hstored hstaged hscript) hrunning
    hnoted.ordered
  refine hbegun.put rfl rfl rfl fun w' hw' => ?_
  cases hw'
  constructor
  case called =>
    intro d' number hrequest' hnumber
    cases hrequest.symm.trans hrequest'
    cases hnumber
    exact handles_begin h.sound legacy d session
  case returned =>
    intro entry d' hrequest' _
    cases hrequest.symm.trans hrequest'

/-- A call has returned, so its delivery is recorded. -/
theorem Effective.returned (hfaithful : Faithful rules) (h : Effective rules stored s)
    (hcourse : InCourse m s) (hw : s.worker partition = some w)
    (hrequest : w.move.request = .handle d) {number : Nat} (hcall : w.call = some number)
    (hreturned : (handling rules).returned s.world number) :
    Effective rules stored (s.put partition (some (w.respond .done))) := by
  obtain ⟨e, he, hnumber, outcome, houtcome⟩ := hreturned
  have hhandles := (h.informed partition w hw).called d number hrequest hcall
  have hdelivery : e.delivery = d := hhandles.2.2 e he hnumber
  have hlast := Handling.lastTurn? (((hcourse partition).duty w hw).asks hrequest) hcall
  refine h.put rfl rfl rfl fun w' hw' => ?_
  cases hw'
  constructor
  case called => exact fun _ _ _ hcalled => by cases hcalled
  case returned =>
    intro entry d' _ hlast'
    cases hlast.symm.trans hlast'
    rw [← hdelivery]
    exact h.sound.recorded e he outcome houtcome fun _ => hfaithful

/-- Every step keeps what holds of effects. -/
theorem effective_step (hfaithful : Faithful rules) (hcourse : InCourse m s)
    (h : Effective rules stored s) (hstep : Step m (handling rules) s s') :
    Effective rules stored s' := by
  cases hstep with
  | @join partition hnone config hconfig legacy policy broker =>
    refine h.put rfl rfl rfl fun w hw => ?_
    cases hw
    exact informed_of_idle (fun _ _ => rfl) fun _ hrequest => by cases hrequest
  | @leave partition w hw =>
    exact h.advance rfl rfl rfl (fun _ hw => by cases hw)
      fun _ hentry => by cases List.mem_singleton.mp hentry
  | serve hw hserved => exact h.serve hcourse hw hserved (.inl rfl)
  | lose hw hserved he => exact h.serve hcourse hw hserved (.inr ⟨_, he, rfl⟩)
  | @cancel partition w hw e he =>
    refine h.put rfl rfl rfl fun w' hw' => ?_
    cases hw'
    exact informed_of_failed w he
  | dispatch hw hrequest hcall hbegins => exact h.dispatch hcourse hw hrequest hcall hbegins
  | returned hw hrequest hcall hreturned =>
    exact h.returned hfaithful hcourse hw hrequest hcall hreturned
  | goOn hgoes =>
    refine h.goOn hgoes.1 (fun c hc => ?_) (h.ordered_step hcourse hgoes.1)
    obtain ⟨c', hc', hsame⟩ := delivery_of_running hgoes.1 hgoes.2 c hc
    exact hsame ▸ h.running c' hc'
  | post partition now fields hfields maxlen approximate =>
    exact h.advance rfl (Function.update_eq_self partition s.worker).symm rfl
      (fun w hw => (h.informed partition w hw).grow rfl)
      fun _ hentry => by cases List.mem_singleton.mp hentry
  | @remove partition e he =>
    exact h.advance rfl (Function.update_eq_self partition s.worker).symm rfl
      (fun w hw => (h.informed partition w hw).grow rfl)
      fun _ hentry => by cases List.mem_singleton.mp hentry
  | @createGroup partition streams hcreate =>
    exact h.put rfl (Function.update_eq_self partition s.worker).symm rfl (h.informed partition)
  | others hentries hlast hgroup =>
    exact h.put rfl (Function.update_eq_self 0 s.worker).symm rfl (h.informed 0)

/-- It holds in every state of a run. -/
theorem effective_of_reachable (hfaithful : Faithful rules)
    (h : Reachable m (handling rules) ⟨stored, [], [], 0⟩ s) : Effective rules stored s := by
  induction h with
  | start =>
    constructor
    case sound => exact sound_of_reachable (.start stored)
    case traced => exact fun row hrow => .inl hrow
    case running => exact fun _ hc => absurd hc List.not_mem_nil
    case ended => exact fun _ he => absurd he List.not_mem_nil
    case informed => exact fun _ _ hw => by cases hw
    case applied => exact fun _ _ hacked => absurd hacked List.not_mem_nil
    case ordered => exact .nil
  | step hreach hstep ih => exact effective_step hfaithful (inCourse_of_reachable hreach) ih hstep

end Shifts

end EventRelay
