import EventRelay.Proofs.Shifts.Course

/-!
# The order of a partition

A consumer that is alone in its group deals with the entries of each partition in the order of the
stream, however often it is stopped and started again.

* `InCourse`: every partition is in its course; `inCourse_step`, `inCourse_of_reachable`: so it is
  in every run.
* `Awaited`: an entry that is still to come to the consumer.
* `settled_or_awaited`: what that says of acknowledgements.
-/

namespace EventRelay

namespace Shifts

open Consumer

variable {ε : Type} {m : Member} {cb : Callback ε} {s s' : Shifts ε} {partition : Int}
  {ss ss' : Streams} {history : List Event} {w : Worker} {response : ConsumerResponse}
  {acks : List Ack}

/-! ## Commands of the broker -/

/-- A worker on duty works on the stream of its partition. -/
theorem OnDuty.stream_eq {g : Group} (h : OnDuty m partition history g w) :
    w.stream = m.stream partition := by
  unfold Worker.stream ConsumerConfig.stream Member.stream
  rw [h.config.topic, h.place]

section serve

variable (h : Course m partition (ss.named (m.stream partition)) (some w) history)

include h

/-- What is pending is read again: the front of the line, and something if there is anything. -/
theorem Course.readOwn {entries : List Handed} (hrequest : w.move.request = .readOwn)
    (hread : ss.readOwn w.stream w.config.group w.config.name w.config.batch.toNat = .ok entries) :
    Course m partition (ss.named (m.stream partition)) (some (w.respond (.batch entries)))
      history := by
  have hduty := h.duty w rfl
  obtain ⟨hstate, hfree⟩ := hduty.asks hrequest
  rw [hduty.stream_eq, hduty.config.group, hduty.config.name] at hread
  obtain rfl := Streams.readOwn_inLine h.outstanding.line hread
  refine h.fetch hstate hfree rfl rfl h.keeps h.outstanding ?_ ?_ fun _ hnone => ?_
  · intro x hx
    obtain ⟨q, hq, rfl⟩ := List.mem_map.mp hx
    obtain ⟨fields, hlisted⟩ := h.outstanding.listed q (List.mem_of_mem_take hq)
    exact h.mirrors.told_fieldsOf? hlisted
  · refine ⟨(((ss.named (m.stream partition)).groupOf m.group).pending.drop
      w.config.batch.toNat).map (·.id.text), ?_, .inl rfl⟩
    rw [List.map_map]
    exact (List.map_append.symm.trans (congrArg _ (List.take_append_drop _ _))).symm
  · have hsome : w.config.batch.toNat ≠ 0 := by have := hduty.config.batch; omega
    exact (List.take_eq_nil_iff.mp (List.map_eq_nil_iff.mp hnone)).resolve_left hsome

/-- New entries are read, and they are the whole line. -/
theorem Course.readNew {now : Instant} {entries : List Handed}
    (hrequest : w.move.request = .readNew)
    (hread : ss.readNew w.stream w.config.group w.config.name w.config.batch.toNat now =
      .ok (entries, ss')) :
    Streams.Regroups (m.stream partition) ss ss' ∧
      Course m partition (ss'.named (m.stream partition)) (some (w.respond (.batch entries)))
        history := by
  have hduty := h.duty w rfl
  obtain ⟨hstate, hnone, hfree⟩ := hduty.asks hrequest
  rw [hduty.stream_eq, hduty.config.group, hduty.config.name] at hread
  obtain ⟨hregroups, hkeeps, -⟩ := Streams.readNew_spec h.keeps hread
  obtain ⟨rfl, hline, hids, hlast⟩ := Streams.readNew_inLine h.keeps h.outstanding.line hread
  rw [hnone, List.map_nil, List.nil_append] at hids
  have hpending : ∀ q ∈ ((ss'.named (m.stream partition)).groupOf m.group).pending,
      ∃ e ∈ ss.upcoming (m.stream partition) m.group w.config.batch.toNat, e.id = q.id := by
    intro q hq
    exact List.mem_map.mp (hids ▸ List.mem_map_of_mem hq)
  refine ⟨hregroups,
    h.fetch hstate hfree hregroups.entries hregroups.lastId hkeeps ?_ ?_ ?_
      fun hsource => by cases hsource⟩
  · refine ⟨hline, fun id hsettled => ?_, fun q hq => ?_⟩
    · have hle := (h.outstanding.settled id hsettled).1
      refine ⟨EntryId.le_trans hle hlast, fun q hq => ?_⟩
      obtain ⟨e, he, hid⟩ := hpending q hq
      exact hid ▸ EntryId.lt_of_le_of_lt hle (Streams.mem_upcoming he).2
    · obtain ⟨e, he, hid⟩ := hpending q hq
      exact ⟨e.fields, hid ▸ h.mirrors.listed e (Streams.mem_upcoming he).1⟩
  · intro x hx
    obtain ⟨e, he, rfl⟩ := List.mem_map.mp hx
    exact h.mirrors.told (Streams.mem_upcoming he).1
  · refine ⟨[], ?_, .inr rfl⟩
    rw [List.append_nil, List.map_map]
    have htexts := congrArg (List.map EntryId.text) hids
    rwa [List.map_map, List.map_map] at htexts

/-- Nothing is there to be taken over. -/
theorem Course.takeOver {now : Instant} {entries : List (String × Fields)}
    (hrequest : w.move.request = .takeOver)
    (htake : ss.takeOver w.stream w.config.group w.config.name w.config.idleMs
      w.config.batch.toNat now = .ok (entries, ss')) :
    Streams.Regroups (m.stream partition) ss ss' ∧
      Course m partition (ss'.named (m.stream partition))
        (some (w.respond (.batch (entries.map fun (id, fields) => (id, some fields)))))
        history := by
  have hduty := h.duty w rfl
  obtain ⟨hstate, hnone, hfree⟩ := hduty.asks hrequest
  rw [hduty.stream_eq, hduty.config.group, hduty.config.name] at htake
  obtain ⟨hregroups, hkeeps, -⟩ := Streams.takeOver_spec h.keeps htake
  obtain ⟨rfl, hgroup⟩ := Streams.takeOver_inLine hnone htake
  refine ⟨hregroups, h.fetch hstate hfree hregroups.entries hregroups.lastId hkeeps
    (hgroup ▸ h.outstanding) (fun _ hx => absurd hx List.not_mem_nil) ⟨[], ?_, .inr rfl⟩
    fun hsource => by cases hsource⟩
  rw [hgroup, hnone]
  rfl

/-- The first entry in line is settled. -/
theorem Course.settle {entry : String} (hrequest : w.move.request = .acknowledge entry) :
    Streams.Regroups (m.stream partition) ss (ss.acknowledge w.stream w.config.group entry) ∧
      Course m partition
        ((ss.acknowledge w.stream w.config.group entry).named (m.stream partition))
        (some (w.respond .done)) (.acknowledged entry :: history) := by
  have hduty := h.duty w rfl
  rw [hduty.stream_eq, hduty.config.group]
  obtain ⟨hregroups, hkeeps⟩ := Streams.acknowledge_spec h.keeps entry
    (fun _ _ => List.mem_cons_of_mem _) (fun _ _ _ => List.mem_cons_self)
  exact ⟨hregroups, h.acknowledge hrequest hregroups.entries hregroups.lastId hkeeps
    (Streams.groupOf_acknowledge ss _ _ entry)⟩

/-- Whatever command is done, it concerns the stream of the partition, which stays in its course. -/
theorem Course.serve (hserved : Served w ss response ss' acks) :
    Streams.Regroups (m.stream partition) ss ss' ∧
      Course m partition (ss'.named (m.stream partition)) (some (w.respond response))
        (eventsOf acks ++ history) := by
  cases hserved with
  | readOwn hrequest hread => exact ⟨Streams.regroups_refl _ _, h.readOwn hrequest hread⟩
  | readNew hrequest hread => exact h.readNew hrequest hread
  | takeOver hrequest htake => exact h.takeOver hrequest htake
  | acknowledge hrequest => exact h.settle hrequest
  | rest hrequest => exact ((h.duty w rfl).asks hrequest).elim

omit h in
/-- What is acknowledged is what the worker asks for. -/
theorem request_of_served (hserved : Served w ss response ss' acks) {entry : String}
    (hmem : .acknowledged entry ∈ eventsOf acks) : w.move.request = .acknowledge entry := by
  cases hserved with
  | acknowledge hrequest =>
    cases List.mem_singleton.mp hmem
    exact hrequest
  | readOwn _ _ => exact absurd hmem List.not_mem_nil
  | readNew _ _ => exact absurd hmem List.not_mem_nil
  | takeOver _ _ => exact absurd hmem List.not_mem_nil
  | rest _ => exact absurd hmem List.not_mem_nil

/-- After a command no entry has its turn. -/
theorem Course.handsFree_of_served (hserved : Served w ss response ss' acks) :
    HandsFree (eventsOf acks ++ history) := by
  have hduty := h.duty w rfl
  cases hserved with
  | readOwn hrequest _ => exact (hduty.asks hrequest).2
  | readNew hrequest _ => exact (hduty.asks hrequest).2.2
  | takeOver hrequest _ => exact (hduty.asks hrequest).2.2
  | acknowledge _ => exact handsFree_acknowledged _
  | rest hrequest => exact (hduty.asks hrequest).elim

end serve

/-! ## Runs -/

/-- Every partition is in its course. -/
def InCourse (m : Member) (s : Shifts ε) : Prop :=
  ∀ partition,
    Course m partition (s.streams.named (m.stream partition)) (s.worker partition)
      (s.history partition)

/-- A step is told by what it does on one partition. -/
theorem InCourse.advance (h : InCourse m s) {partition : Int} {worker : Option Worker}
    {history : List Event} (hworker : s'.worker = Function.update s.worker partition worker)
    (hhistory : s'.history = Function.update s.history partition history)
    (hstreams : ∀ name, m.stream partition ≠ name → s'.streams.named name = s.streams.named name)
    (hcourse : Course m partition (s'.streams.named (m.stream partition)) worker history) :
    InCourse m s' := by
  intro other
  rw [hworker, hhistory]
  by_cases hother : other = partition
  · subst hother
    rw [Function.update_self, Function.update_self]
    exact hcourse
  · have hname : m.stream partition ≠ m.stream other := fun hsame =>
      hother (streamName_injective hsame).symm
    rw [Function.update_of_ne hother, Function.update_of_ne hother, hstreams _ hname]
    exact h other

/-- Only the worker of a partition changes. -/
theorem InCourse.put (h : InCourse m s) {partition : Int} {worker : Option Worker}
    (hcourse : Course m partition (s.streams.named (m.stream partition)) worker
      (s.history partition)) : InCourse m (s.put partition worker) :=
  h.advance rfl (Function.update_eq_self _ _).symm (fun _ _ => rfl) hcourse

/-- A request that is served keeps every partition in its course. -/
theorem InCourse.serve (h : InCourse m s) (hw : s.worker partition = some w)
    (hserved : Served w s.streams response ss' acks) {w' : Worker}
    (hw' : w' = w.respond response ∨
      ∃ e : Failure, e.isCancellation = true ∧ w' = w.respond (.failed e)) :
    InCourse m
      { (s.put partition (some w')).note partition (eventsOf acks) with streams := ss' } := by
  have hcourse := h partition
  rw [hw] at hcourse
  obtain ⟨hregroups, hserve⟩ := hcourse.serve hserved
  refine h.advance rfl rfl hregroups.others ?_
  rcases hw' with rfl | ⟨e, he, rfl⟩
  · exact hserve
  · exact hserve.swap ((hcourse.duty w rfl).stop he fun _ => List.mem_append_right _)

/-- Every step keeps every partition in its course. -/
theorem inCourse_step (h : InCourse m s) (hstep : Step m cb s s') : InCourse m s' := by
  cases hstep with
  | @join partition hnone config hconfig legacy policy broker =>
    have hcourse := h partition
    rw [hnone] at hcourse
    exact h.put (hcourse.join hconfig legacy policy broker)
  | @leave partition w hw => exact h.advance rfl rfl (fun _ _ => rfl) (h partition).leave
  | serve hw hserved => exact h.serve hw hserved (.inl rfl)
  | lose hw hserved he => exact h.serve hw hserved (.inr ⟨_, he, rfl⟩)
  | @cancel partition w hw e he =>
    exact h.put ((h partition).swap (((h partition).duty w hw).stop he fun _ => id))
  | @dispatch partition w hw d hrequest hcall number world hbegins =>
    have hcourse := h partition
    rw [hw] at hcourse
    exact h.advance rfl rfl (fun _ _ => rfl) (hcourse.dispatch hrequest hcall number)
  | @returned partition w hw d hrequest number hcall hreturned =>
    have hcourse := h partition
    rw [hw] at hcourse
    exact h.put (hcourse.returned hrequest hcall)
  | goOn hgoes => exact h
  | post partition now fields hfields maxlen approximate =>
    refine h.advance (Function.update_eq_self partition s.worker).symm rfl
      (fun name hne => Streams.named_append_of_ne _ _ _ _ _ _ _ hne) ?_
    have hcourse := (h partition).append now hfields maxlen approximate
    rw [← Streams.named_append_self] at hcourse
    exact hcourse
  | @remove partition e he =>
    refine h.advance (Function.update_eq_self partition s.worker).symm rfl
      (fun name hne => Streams.named_erase_of_ne _ _ hne) ?_
    change Course m partition ((s.streams.erase (m.stream partition) e.id.text).named _) _ _
    rw [Streams.named_erase_self]
    exact (h partition).erase e.id.text
  | @createGroup partition streams hcreate =>
    obtain ⟨hregroups, hkeeps⟩ := Streams.createGroup_spec hcreate
    refine h.advance (Function.update_eq_self partition s.worker).symm
      (Function.update_eq_self partition s.history).symm hregroups.others ?_
    exact (h partition).regroup hregroups.entries hregroups.lastId (hkeeps _ _ (h partition).keeps)
      (Streams.groupOf_createGroup hcreate)
  | others hentries hlast hgroup =>
    intro partition
    refine (h partition).regroup (hentries partition) (hlast partition)
      ((h partition).keeps.same (hentries partition) (hlast partition) (hgroup partition)) ?_
    unfold Stream.groupOf
    rw [hgroup]

/-- In the beginning every partition is in its course. -/
theorem inCourse_start (world : ε) :
    InCourse m ⟨world, [], fun _ => none, fun _ => []⟩ := by
  intro partition
  constructor
  case mirrors =>
    exact ⟨fun _ he => absurd he List.not_mem_nil, fun _ _ h => absurd h List.not_mem_nil,
      fun _ _ h => absurd h List.not_mem_nil, fun _ _ h => absurd h List.not_mem_nil⟩
  case keeps => exact Stream.keeps_empty _
  case outstanding =>
    exact ⟨⟨.nil, fun _ hq => absurd hq List.not_mem_nil, fun _ hq => absurd hq List.not_mem_nil⟩,
      fun _ h => absurd h List.not_mem_nil, fun _ hq => absurd hq List.not_mem_nil⟩
  case orderly => trivial
  case duty => exact fun _ hw => by cases hw
  case free => exact fun _ _ hlast => by cases hlast

/-- Every partition is in its course in every state of a run. -/
theorem inCourse_of_reachable {world : ε} (h : Reachable m cb world s) : InCourse m s := by
  induction h with
  | start => exact inCourse_start world
  | step _ hstep ih => exact inCourse_step ih hstep

/-- An entry that is still to come to the consumer: the group was not handed it yet, or it is
pending for the consumer. -/
def Awaited (m : Member) (s : Shifts ε) (partition : Int) (id : EntryId) : Prop :=
  let g := (s.streams.named (m.stream partition)).groupOf m.group
  g.last.lt id = true ∨ ∃ q ∈ g.pending, q.id = id ∧ q.owner = m.name

/-- Every entry is acknowledged, removed or still to come. -/
theorem settled_or_awaited (h : InCourse m s) {id : EntryId} {fields : Fields}
    (hid : .appended id fields ∈ s.history partition) :
    .acknowledged id.text ∈ s.history partition ∨ .removed id.text ∈ s.history partition ∨
      Awaited m s partition id := by
  have hcourse := h partition
  rcases hcourse.mirrors.there id fields hid with hremoved | ⟨e, he, rfl⟩
  · exact .inr (.inl hremoved)
  · unfold Awaited
    dsimp only
    rcases hg : (s.streams.named (m.stream partition)).group? m.group with _ | g
    · have hlast : ((s.streams.named (m.stream partition)).groupOf m.group).last = .zero := by
        unfold Stream.groupOf
        rw [hg]
        rfl
      rw [hlast]
      exact .inr (.inr (.inl (hcourse.keeps.above e he)))
    · have howned := hcourse.outstanding.line.owned
      rw [Stream.groupOf_of_some hg] at howned ⊢
      rcases hcourse.keeps.stands g hg e he with hnew | ⟨q, hq, hsame⟩ | hsettled
      · exact .inr (.inr (.inl hnew))
      · exact .inr (.inr (.inr ⟨q, hq, hsame, howned q hq⟩))
      · exact .inl hsettled

end Shifts

end EventRelay
