import EventRelay.Proofs.Consumer.Custody
import EventRelay.Proofs.Shifts.Run

/-!
# The course of a partition

What holds of a partition at any time: its stream, the entries that are pending there, its worker,
and the history of all that.  What is pending stands in line, behind all that is acknowledged, and the
batch that the worker has is the front of that line.  Only a batch of entries from before may leave
others in line, and then they are read again before anything else is.

* `Course`: the invariant of one partition.
* `Course.isDue`: the first entry in line is the next one to be dealt with.
* `Course.append`, `Course.erase`, `Course.regroup`: what others do.
* `Course.join`, `Course.leave`, `OnDuty.stop`, `Course.dispatch`, `Course.returned`,
  `Course.acknowledge`, `Course.fetch`: what the worker does.
-/

namespace EventRelay

namespace Shifts

open Consumer

variable {m : Member} {partition : Int} {st st' : Stream} {history : List Event} {g : Group}
  {w : Worker} {worker : Option Worker} {e : Event}

/-! ## What holds of a partition -/

/-- What a worker is told of an entry: its fields, or that it was removed. -/
inductive Told (history : List Event) : Handed → Prop where
  /-- The entry has these fields. -/
  | there {id : EntryId} {f : String × String} {fs : Fields}
      (h : .appended id (f :: fs) ∈ history) : Told history (id.text, some (f :: fs))
  /-- The entry was removed. -/
  | gone {id : EntryId} (h : .removed id.text ∈ history) : Told history (id.text, none)

/-- The history tells of the entries of a stream. -/
structure Mirrors (history : List Event) (st : Stream) : Prop where
  /-- What is in the stream was appended. -/
  listed : ∀ e ∈ st.entries, .appended e.id e.fields ∈ history
  /-- What was appended is there, unless it was removed. -/
  there : ∀ id fields, .appended id fields ∈ history →
    .removed id.text ∈ history ∨ ∃ e ∈ st.entries, e.id = id
  /-- It has fields. -/
  content : ∀ id fields, .appended id fields ∈ history → fields ≠ []
  /-- It does not come after the last identifier. -/
  below : ∀ id fields, .appended id fields ∈ history → id.le st.lastId

/-- What is pending stands in line behind what is acknowledged. -/
structure Outstanding (name : String) (history : List Event) (g : Group) : Prop where
  /-- It stands in line, for the consumer of that name. -/
  line : g.InLine name
  /-- What is acknowledged was handed over and comes before. -/
  settled : ∀ id : EntryId, .acknowledged id.text ∈ history →
    id.le g.last ∧ ∀ q ∈ g.pending, id.lt q.id = true
  /-- What is pending was appended. -/
  listed : ∀ q ∈ g.pending, ∃ fields, .appended q.id fields ∈ history

/-- A batch is the front of the line, and the whole of it unless it was read from before. -/
def Fronts (batch : List Handed) (source : Source) (g : Group) : Prop :=
  ∃ others, g.pending.map (·.id.text) = batch.map (·.1) ++ others ∧
    (source = .backlog ∨ others = [])

/-- The first entry of a batch is to be dispatched, or it was. -/
inductive Handling (topic : String) (partition : Int) (history : List Event) (g : Group)
    (w : Worker) (d : Delivery) : Prop where
  /-- It is this one. -/
  | intro (source : Source) (entry : String) (f : String × String) (fs : Fields)
      (rest : List Handed) (acked : Nat) (hstate : w.move.state = .handling source entry rest acked)
      (hbatch : w.batch = (entry, some (f :: fs)) :: rest)
      (hd : d = .ofFields topic partition entry (f :: fs)) (hfronts : Fronts w.batch source g)
      (hturn : w.call = none ∧ HandsFree history ∨
        (∃ number, w.call = some number) ∧ lastTurn? history = some (.dispatched d))

/-- The first entry of a batch is to be acknowledged: its callback returned, or it was removed. -/
inductive Acking (history : List Event) (g : Group) (w : Worker) (entry : String) : Prop where
  /-- It is this one. -/
  | intro (source : Source) (fields : Option Fields) (rest : List Handed) (acked : Nat)
      (hstate : w.move.state = .acking source rest acked)
      (hbatch : w.batch = (entry, fields) :: rest)
      (hfronts : Fronts w.batch source g)
      (hturn : (∃ d, lastTurn? history = some (.dispatched d) ∧ d.offset = entry) ∨
        (HandsFree history ∧ .removed entry ∈ history))

/-- A worker may ask for that: only with nothing pending it looks for other entries than its own,
and it goes through its batch in order. -/
def Poised (topic : String) (partition : Int) (history : List Event) (g : Group) (w : Worker) :
    ConsumerRequest → Prop
  | .readOwn => w.move.state = .fetching .backlog ∧ HandsFree history
  | .takeOver => w.move.state = .fetching .idle ∧ g.pending = [] ∧ HandsFree history
  | .readNew => w.move.state = .fetching .fresh ∧ g.pending = [] ∧ HandsFree history
  | .handle d => Handling topic partition history g w d
  | .acknowledge entry => Acking history g w entry
  | .rest => False
  | .finish _ => True

/-- A worker of the consumer on its partition. -/
structure OnDuty (m : Member) (partition : Int) (history : List Event) (g : Group)
    (w : Worker) : Prop where
  /-- It works on that partition. -/
  place : w.partition = partition
  /-- It was started as that consumer. -/
  config : m.Runs w.config
  /-- What it was told of its batch is true. -/
  told : ∀ x ∈ w.batch, Told history x
  /-- It may ask for what it asks for. -/
  poised : Poised m.topic partition history g w w.move.request

/-- What holds of a partition at any time. -/
structure Course (m : Member) (partition : Int) (st : Stream) (worker : Option Worker)
    (history : List Event) : Prop where
  /-- The history tells of the entries. -/
  mirrors : Mirrors history st
  /-- No entry is lost. -/
  keeps : st.Keeps (fun entry _ => .acknowledged entry ∈ history) m.group
  /-- What is pending stands in line. -/
  outstanding : Outstanding m.name history (st.groupOf m.group)
  /-- Only what was allowed has happened. -/
  orderly : Orderly m.topic partition history
  /-- The worker is on duty. -/
  duty : ∀ w, worker = some w → OnDuty m partition history (st.groupOf m.group) w
  /-- Without a worker no entry has its turn. -/
  free : worker = none → HandsFree history

/-! ## Events -/

/-- What a worker was told of an entry stays true as the history grows. -/
theorem Told.grow {x : Handed} (h : Told history x) (e : Event) : Told (e :: history) x := by
  cases h with
  | there h => exact .there (List.mem_cons_of_mem _ h)
  | gone h => exact .gone (List.mem_cons_of_mem _ h)

/-- What the worker does appends no entry. -/
theorem appended_mem_cons (he : e.isTurn = true) {id : EntryId} {fields : Fields} :
    .appended id fields ∈ e :: history ↔ .appended id fields ∈ history := by
  rw [List.mem_cons]
  refine or_iff_right fun h => ?_
  rw [← h] at he
  cases he

/-- An entry that was told with its fields was appended with them. -/
theorem Told.appended {entry : String} {fields : Fields} (h : Told history (entry, some fields)) :
    ∃ id : EntryId, id.text = entry ∧ .appended id fields ∈ history := by
  cases h with
  | there h => exact ⟨_, rfl, h⟩

/-- What the worker does is not the stream's business. -/
theorem Mirrors.turn (h : Mirrors history st) (he : e.isTurn = true) :
    Mirrors (e :: history) st where
  listed x hx := List.mem_cons_of_mem _ (h.listed x hx)
  there id fields hmem :=
    (h.there id fields ((appended_mem_cons he).mp hmem)).imp_left (List.mem_cons_of_mem _)
  content id fields hmem := h.content id fields ((appended_mem_cons he).mp hmem)
  below id fields hmem := h.below id fields ((appended_mem_cons he).mp hmem)

/-- The history still tells of a stream with the same entries. -/
theorem Mirrors.same (h : Mirrors history st) (hentries : st'.entries = st.entries)
    (hlast : st'.lastId = st.lastId) : Mirrors history st' where
  listed := hentries ▸ h.listed
  there := hentries ▸ h.there
  content := h.content
  below := hlast ▸ h.below

/-- What the stream says of an entry that is there is true. -/
theorem Mirrors.told (h : Mirrors history st) {e : Entry} (he : e ∈ st.entries) :
    Told history (e.id.text, some e.fields) := by
  have hlisted := h.listed e he
  have hcontent := h.content e.id e.fields hlisted
  obtain ⟨f, fs, hfields⟩ := List.exists_cons_of_ne_nil hcontent
  rw [hfields] at hlisted ⊢
  exact .there hlisted

/-- So is what it says of an entry that was appended at some time. -/
theorem Mirrors.told_fieldsOf? (h : Mirrors history st) {id : EntryId} {fields : Fields}
    (hid : .appended id fields ∈ history) : Told history (id.text, st.fieldsOf? id) := by
  unfold Stream.fieldsOf?
  rcases hfind : st.entries.find? (·.id = id) with _ | e
  · rw [hfind, Option.map_none]
    rcases h.there id fields hid with hremoved | ⟨e, he, hsame⟩
    · exact .gone hremoved
    · exact absurd (decide_eq_true hsame) (List.find?_eq_none.mp hfind e he)
  · have hsame : e.id = id := by simpa using List.find?_some hfind
    rw [hfind, Option.map_some, ← hsame]
    exact h.told (List.mem_of_find?_eq_some hfind)

/-- Only an acknowledgement settles anything. -/
theorem Outstanding.grow {name : String} (h : Outstanding name history g)
    (he : ∀ entry, e ≠ .acknowledged entry) : Outstanding name (e :: history) g where
  line := h.line
  settled id hmem := h.settled id (List.mem_of_ne_of_mem (he _).symm hmem)
  listed q hq := (h.listed q hq).imp fun _ => List.mem_cons_of_mem _

/-- What others do leaves the last thing that the worker did. -/
theorem lastTurn?_of_not_turn (he : e.isTurn = false) :
    lastTurn? (e :: history) = lastTurn? history := by
  rw [lastTurn?_cons, he]
  rfl

/-- What others do gives no entry its turn. -/
theorem HandsFree.grow (h : HandsFree history) (he : e.isTurn = false) :
    HandsFree (e :: history) := by
  intro d
  rw [lastTurn?_of_not_turn he]
  exact h d

/-- What happens to the stream does not change what a worker may ask for. -/
theorem Poised.grow {topic : String} {request : ConsumerRequest}
    (h : Poised topic partition history g w request) (he : e.isTurn = false) :
    Poised topic partition (e :: history) g w request := by
  cases request with
  | readOwn => exact ⟨h.1, h.2.grow he⟩
  | takeOver => exact ⟨h.1, h.2.1, h.2.2.grow he⟩
  | readNew => exact ⟨h.1, h.2.1, h.2.2.grow he⟩
  | handle d =>
    obtain ⟨source, entry, f, fs, rest, acked, hstate, hbatch, hd, hfronts, hturn⟩ := h
    refine .intro source entry f fs rest acked hstate hbatch hd hfronts ?_
    rw [lastTurn?_of_not_turn he]
    exact hturn.imp_left fun h => ⟨h.1, h.2.grow he⟩
  | acknowledge entry =>
    obtain ⟨source, fields, rest, acked, hstate, hbatch, hfronts, hturn⟩ := h
    refine .intro source fields rest acked hstate hbatch hfronts ?_
    rw [lastTurn?_of_not_turn he]
    exact hturn.imp_right fun h => ⟨h.1.grow he, List.mem_cons_of_mem _ h.2⟩
  | rest => exact h
  | finish r => exact h

/-- What a worker on duty asks for is what it may ask for. -/
theorem OnDuty.asks (h : OnDuty m partition history g w) {request : ConsumerRequest}
    (hrequest : w.move.request = request) : Poised m.topic partition history g w request :=
  hrequest ▸ h.poised

/-- A worker stays on duty whatever others do. -/
theorem OnDuty.grow (h : OnDuty m partition history g w) (he : e.isTurn = false) :
    OnDuty m partition (e :: history) g w :=
  ⟨h.place, h.config, fun x hx => (h.told x hx).grow e, h.poised.grow he⟩

/-- No entry has its turn before a delivery is dispatched. -/
theorem Handling.handsFree {topic : String} {d : Delivery}
    (h : Handling topic partition history g w d) (hcall : w.call = none) : HandsFree history := by
  obtain ⟨_, _, _, _, _, _, -, -, -, -, ⟨-, hfree⟩ | ⟨⟨number, hsome⟩, -⟩⟩ := h
  · exact hfree
  · cases hcall.symm.trans hsome

/-- During a callback the entry of its delivery has its turn. -/
theorem Handling.lastTurn? {topic : String} {d : Delivery}
    (h : Handling topic partition history g w d) {number : Nat} (hcall : w.call = some number) :
    lastTurn? history = some (.dispatched d) := by
  obtain ⟨_, _, _, _, _, _, -, -, -, -, ⟨hnone, -⟩ | ⟨-, hlast⟩⟩ := h
  · cases hcall.symm.trans hnone
  · exact hlast

/-! ## The front of the line -/

/-- The first entry of a batch is the first in line. -/
theorem Fronts.first {source : Source} {entry : String} {fields : Option Fields}
    {rest : List Handed} (h : Fronts ((entry, fields) :: rest) source g) :
    ∃ q others, g.pending = q :: others ∧ q.id.text = entry := by
  obtain ⟨others, hmap, -⟩ := h
  rcases hpending : g.pending with _ | ⟨q, qs⟩
  · simp [hpending] at hmap
  · rw [hpending, List.map_cons, List.map_cons, List.cons_append] at hmap
    exact ⟨q, qs, rfl, (List.cons.inj hmap).1⟩

/-- An entry leaves the line as it leaves its batch. -/
theorem Fronts.rest {source : Source} {entry : String} {fields : Option Fields}
    {rest : List Handed} {owner : String} (h : Fronts ((entry, fields) :: rest) source g)
    (hline : g.InLine owner) : Fronts rest source (g.acknowledge entry) := by
  obtain ⟨q, qs, hpending, rfl⟩ := h.first
  obtain ⟨others, hmap, hothers⟩ := h
  refine ⟨others, ?_, hothers⟩
  rw [hline.pending_acknowledge hpending]
  rw [hpending, List.map_cons, List.map_cons, List.cons_append] at hmap
  exact (List.cons.inj hmap).2

/-- A whole line that is dealt with is empty. -/
theorem Fronts.pending_eq_nil {source : Source} (h : Fronts [] source g)
    (hsource : source ≠ .backlog) : g.pending = [] := by
  obtain ⟨others, hmap, hothers⟩ := h
  rw [hothers.resolve_left hsource] at hmap
  exact List.map_eq_nil_iff.mp hmap

/-- The turn of the first entry in line has come. -/
theorem Course.isDue (h : Course m partition st worker history) {q : Pending}
    {others : List Pending} (hpending : (st.groupOf m.group).pending = q :: others) :
    IsDue history q.id := by
  have hq : q ∈ (st.groupOf m.group).pending := by rw [hpending]; exact List.mem_cons_self
  constructor
  case listed => exact h.outstanding.listed q hq
  case unsettled =>
    intro hsettled
    have hlt := (h.outstanding.settled q.id hsettled).2 q hq
    rw [EntryId.lt_irrefl] at hlt
    cases hlt
  case cleared =>
    intro id fields hid hlt
    rcases h.mirrors.there id fields hid with hremoved | ⟨e, he, rfl⟩
    · exact .inr hremoved
    · -- an entry before it can neither be new nor be in line
      rcases h.keeps.stands _ (Stream.group?_of_pending hq) e he with hnew | ⟨r, hr, hid⟩ | hsettled
      · have hlast := EntryId.lt_of_lt_of_le hlt (h.outstanding.line.within q hq)
        exact absurd hnew (EntryId.not_lt_of_le (EntryId.le_of_lt hlast))
      · rw [← hid] at hlt
        rw [hpending] at hr
        rcases List.mem_cons.mp hr with rfl | hr
        · rw [EntryId.lt_irrefl] at hlt
          cases hlt
        · have hordered := h.outstanding.line.ordered
          rw [hpending] at hordered
          have hafter := (List.pairwise_cons.mp hordered).1 r hr
          exact absurd hlt (EntryId.not_lt_of_le (EntryId.le_of_lt hafter))
      · exact .inl hsettled

/-! ## What others do -/

/-- A partition stays in its course when an entry is appended. -/
theorem Course.append (h : Course m partition st worker history) (now : Instant) {fields : Fields}
    (hfields : fields ≠ []) (maxlen : Option Int) (approximate : Bool) :
    Course m partition (st.append now fields maxlen approximate).2 worker
      (.appended (st.append now fields maxlen approximate).1 fields :: history) where
  mirrors := by
    constructor
    case listed =>
      intro e he
      rcases List.mem_append.mp he with he | he
      · exact List.mem_cons_of_mem _ (h.mirrors.listed e he)
      · rw [List.mem_singleton.mp he]
        exact List.mem_cons_self
    case there =>
      intro id fields' hid
      rcases List.mem_cons.mp hid with heq | hid
      · cases heq
        exact .inr ⟨_, List.mem_append_right _ List.mem_cons_self, rfl⟩
      · exact (h.mirrors.there id fields' hid).imp (List.mem_cons_of_mem _)
          fun ⟨e, he, hsame⟩ => ⟨e, List.mem_append_left _ he, hsame⟩
    case content =>
      intro id fields' hid
      rcases List.mem_cons.mp hid with heq | hid
      · cases heq
        exact hfields
      · exact h.mirrors.content id fields' hid
    case below =>
      intro id fields' hid
      rcases List.mem_cons.mp hid with heq | hid
      · cases heq
        exact EntryId.le_refl _
      · exact EntryId.le_trans (h.mirrors.below id fields' hid)
          (EntryId.le_of_lt (EntryId.lt_after _ _))
  keeps := (h.keeps.append now fields maxlen approximate).mono fun _ _ => List.mem_cons_of_mem _
  outstanding := h.outstanding.grow fun _ hsame => by cases hsame
  orderly := ⟨fun id fields' hid =>
    EntryId.lt_of_le_of_lt (h.mirrors.below id fields' hid) (EntryId.lt_after _ _), h.orderly⟩
  duty w hw := (h.duty w hw).grow rfl
  free hnone := (h.free hnone).grow rfl

/-- A partition stays in its course when an entry is removed. -/
theorem Course.erase (h : Course m partition st worker history) (entry : String) :
    Course m partition (st.erase entry) worker (.removed entry :: history) where
  mirrors := by
    have hold : ∀ {id fields}, .appended id fields ∈ Event.removed entry :: history →
        .appended id fields ∈ history := fun hid =>
      (List.mem_cons.mp hid).resolve_left fun hsame => by cases hsame
    constructor
    case listed =>
      exact fun e he => List.mem_cons_of_mem _ (h.mirrors.listed e (List.mem_filter.mp he).1)
    case there =>
      intro id fields hid
      rcases h.mirrors.there id fields (hold hid) with hremoved | ⟨e, he, rfl⟩
      · exact .inl (List.mem_cons_of_mem _ hremoved)
      · by_cases htext : e.id.text = entry
        · rw [htext]
          exact .inl List.mem_cons_self
        · exact .inr ⟨e, List.mem_filter.mpr ⟨he, decide_eq_true htext⟩, rfl⟩
    case content => exact fun id fields hid => h.mirrors.content id fields (hold hid)
    case below => exact fun id fields hid => h.mirrors.below id fields (hold hid)
  keeps := (h.keeps.erase entry).mono fun _ _ => List.mem_cons_of_mem _
  outstanding := h.outstanding.grow fun _ hsame => by cases hsame
  orderly := ⟨trivial, h.orderly⟩
  duty w hw := (h.duty w hw).grow rfl
  free hnone := (h.free hnone).grow rfl

/-- Groups may change, as long as this one stays the same. -/
theorem Course.regroup (h : Course m partition st worker history)
    (hentries : st'.entries = st.entries) (hlast : st'.lastId = st.lastId)
    (hkeeps : st'.Keeps (fun entry _ => .acknowledged entry ∈ history) m.group)
    (hgroup : st'.groupOf m.group = st.groupOf m.group) :
    Course m partition st' worker history where
  mirrors := h.mirrors.same hentries hlast
  keeps := hkeeps
  outstanding := hgroup ▸ h.outstanding
  orderly := h.orderly
  duty := hgroup ▸ h.duty
  free := h.free

/-! ## What the worker does -/

/-- A worker takes over from another one. -/
theorem Course.swap (h : Course m partition st worker history) {w : Worker}
    (hw : OnDuty m partition history (st.groupOf m.group) w) :
    Course m partition st (some w) history where
  mirrors := h.mirrors
  keeps := h.keeps
  outstanding := h.outstanding
  orderly := h.orderly
  duty _ hsame := Option.some.inj hsame ▸ hw
  free hnone := by cases hnone

/-- A partition stays in its course when a worker is started. -/
theorem Course.join (h : Course m partition st none history) {config : ConsumerConfig}
    (hconfig : m.Runs config) (legacy : Bool) (policy : RetryPolicy) (broker : Broker) :
    Course m partition st (some (Worker.fresh config partition legacy policy broker)) history := by
  refine h.swap ?_
  constructor
  case place => rfl
  case config => exact hconfig
  case told => exact fun _ hx => absurd hx List.not_mem_nil
  case poised => exact ⟨rfl, h.free rfl⟩

/-- A partition stays in its course when its worker is stopped. -/
theorem Course.leave (h : Course m partition st worker history) :
    Course m partition st none (.stopped :: history) where
  mirrors := h.mirrors.turn rfl
  keeps := h.keeps.mono fun _ _ => List.mem_cons_of_mem _
  outstanding := h.outstanding.grow fun _ hsame => by cases hsame
  orderly := ⟨trivial, h.orderly⟩
  duty _ hw := by cases hw
  free _ := handsFree_stopped

/-- A worker that is cancelled ends. -/
theorem request_failed (w : Worker) {e : Failure} (he : e.isCancellation = true) :
    (w.respond (.failed e)).move.request = .finish (.error e) := by
  change (advance w.config w.partition .endless w.move.state (.failed e)).request = _
  unfold advance
  cases w.move.state
  all_goals simp [afterError, he]

/-- A worker that was cancelled asks for nothing more. -/
theorem OnDuty.stop (h : OnDuty m partition history g w) {e : Failure}
    (he : e.isCancellation = true) {history' : List Event} (hsub : ∀ x ∈ history, x ∈ history')
    {g' : Group} : OnDuty m partition history' g' (w.respond (.failed e)) where
  place := h.place
  config := h.config
  told x hx := by
    have hmem : x ∈ w.batch := by
      change x ∈ w.batchAfter (.failed e) at hx
      unfold Worker.batchAfter at hx
      cases hstate : w.move.state with
      | fetching source =>
        rw [hstate] at hx
        exact absurd hx List.not_mem_nil
      | handling source entry rest acked =>
        rw [hstate] at hx
        exact List.mem_of_mem_tail hx
      | acking source rest acked =>
        rw [hstate] at hx
        exact List.mem_of_mem_tail hx
      | resting backlog =>
        rw [hstate] at hx
        exact absurd hx List.not_mem_nil
    cases h.told x hmem with
    | there h => exact .there (hsub _ h)
    | gone h => exact .gone (hsub _ h)
  poised := by
    rw [request_failed w he]
    trivial

/-- A worker that goes on with its batch. -/
theorem poised_next {source : Source} {entries : List Handed} {acked : Nat}
    (hplace : w.partition = partition) (hconfig : m.Runs w.config) (hbatch : w.batch = entries)
    (hmove : w.move = Consumer.next w.config w.partition .endless source entries acked)
    (hcall : w.call = none) (htold : ∀ x ∈ entries, Told history x)
    (hfronts : Fronts entries source g)
    (hdone : source = .backlog → entries = [] → acked = 0 → g.pending = [])
    (hfree : HandsFree history) : Poised m.topic partition history g w w.move.request := by
  rw [hmove]
  rcases entries with _ | ⟨⟨entry, fields⟩, rest⟩
  · cases source with
    | backlog =>
      have hstate : w.move.state = .fetching (if 0 < acked then .backlog else .idle) := by
        rw [hmove]
        rfl
      by_cases hacked : 0 < acked
      · rw [if_pos hacked] at hstate
        simp only [Consumer.next, afterBatch, if_pos hacked, fetch]
        exact ⟨hstate, hfree⟩
      · rw [if_neg hacked] at hstate
        simp only [Consumer.next, afterBatch, if_neg hacked, fetch]
        exact ⟨hstate, hdone rfl rfl (Nat.eq_zero_of_not_pos hacked), hfree⟩
    | idle =>
      have hnone := hfronts.pending_eq_nil fun hsource => by cases hsource
      exact ⟨by rw [hmove]; rfl, hnone, hfree⟩
    | fresh =>
      have hnone := hfronts.pending_eq_nil fun hsource => by cases hsource
      exact ⟨by rw [hmove]; rfl, hnone, hfree⟩
  · rw [← hbatch] at hfronts
    cases htold _ List.mem_cons_self with
    | @there id f fs hlisted =>
      refine .intro source id.text f fs rest acked (by rw [hmove]; rfl) hbatch ?_ hfronts
        (.inl ⟨hcall, hfree⟩)
      rw [← hconfig.topic, ← hplace]
    | @gone id hremoved =>
      exact .intro source none rest acked (by rw [hmove]; rfl) hbatch hfronts
        (.inr ⟨hfree, hremoved⟩)

/-! ## Turns of entries -/

/-- A partition stays in its course when an entry is dispatched. -/
theorem Course.dispatch (h : Course m partition st (some w) history) {d : Delivery}
    (hrequest : w.move.request = .handle d) (hcall : w.call = none) (number : Nat) :
    Course m partition st (some { w with call := some number }) (.dispatched d :: history) := by
  have hduty := h.duty w rfl
  have hfree := Handling.handsFree (hduty.asks hrequest) hcall
  obtain ⟨source, entry, f, fs, rest, acked, hstate, hbatch, rfl, hfronts, -⟩ :=
    hduty.asks hrequest
  obtain ⟨q, others, hpending, htext⟩ := (hbatch ▸ hfronts).first
  have htold := hduty.told (entry, some (f :: fs)) (by rw [hbatch]; exact List.mem_cons_self)
  obtain ⟨id, hid, hlisted⟩ := htold.appended
  rw [EntryId.text_injective (hid.trans htext.symm)] at hlisted
  constructor
  case mirrors => exact h.mirrors.turn rfl
  case keeps => exact h.keeps.mono fun _ _ => List.mem_cons_of_mem _
  case outstanding => exact h.outstanding.grow fun _ hsame => by cases hsame
  case orderly =>
    exact ⟨⟨hfree, q.id, f :: fs, hlisted, by rw [htext], h.isDue hpending⟩, h.orderly⟩
  case duty =>
    intro w' hw'
    cases hw'
    refine ⟨hduty.place, hduty.config, fun x hx => (hduty.told x hx).grow _, ?_⟩
    rw [hrequest]
    exact .intro source entry f fs rest acked hstate hbatch rfl hfronts
      (.inr ⟨⟨number, rfl⟩, rfl⟩)
  case free => exact fun hnone => by cases hnone

/-- After a callback returned, its entry is to be acknowledged. -/
theorem Course.returned (h : Course m partition st (some w) history) {d : Delivery}
    (hrequest : w.move.request = .handle d) {number : Nat} (hcall : w.call = some number) :
    Course m partition st (some (w.respond .done)) history := by
  have hduty := h.duty w rfl
  have hlast := Handling.lastTurn? (hduty.asks hrequest) hcall
  obtain ⟨source, entry, f, fs, rest, acked, hstate, hbatch, rfl, hfronts, -⟩ :=
    hduty.asks hrequest
  have hmove := move_respond hstate .done
  have hsame : (w.respond .done).batch = w.batch := by
    simp [Worker.respond, Worker.batchAfter, hstate]
  refine h.swap ⟨hduty.place, hduty.config, hsame ▸ hduty.told, ?_⟩
  rw [congrArg ConsumerMove.request hmove]
  exact .intro source (some (f :: fs)) rest acked (congrArg ConsumerMove.state hmove)
    (hsame.trans hbatch) (hsame ▸ hfronts) (.inl ⟨_, hlast, rfl⟩)

/-- What is acknowledged from the front leaves the others in line. -/
theorem Outstanding.acknowledge {name : String} (h : Outstanding name history g) {q : Pending}
    {others : List Pending} (hpending : g.pending = q :: others) :
    Outstanding name (.acknowledged q.id.text :: history) (g.acknowledge q.id.text) where
  line := h.line.acknowledge _
  settled id hid := by
    rcases List.mem_cons.mp hid with hsame | hid
    · have hq : q ∈ g.pending := by rw [hpending]; exact List.mem_cons_self
      rw [EntryId.text_injective (Event.acknowledged.inj hsame),
        h.line.pending_acknowledge hpending]
      have hordered := h.line.ordered
      rw [hpending] at hordered
      exact ⟨h.line.within q hq, (List.pairwise_cons.mp hordered).1⟩
    · obtain ⟨hle, hlt⟩ := h.settled id hid
      exact ⟨hle, fun r hr => hlt r (List.mem_filter.mp hr).1⟩
  listed r hr := (h.listed r (List.mem_filter.mp hr).1).imp fun _ => List.mem_cons_of_mem _

/-- A partition stays in its course when an entry is acknowledged. -/
theorem Course.acknowledge (h : Course m partition st (some w) history) {entry : String}
    (hrequest : w.move.request = .acknowledge entry) (hentries : st'.entries = st.entries)
    (hlast : st'.lastId = st.lastId)
    (hkeeps : st'.Keeps (fun x _ => .acknowledged x ∈ .acknowledged entry :: history) m.group)
    (hgroup : st'.groupOf m.group = (st.groupOf m.group).acknowledge entry) :
    Course m partition st' (some (w.respond .done)) (.acknowledged entry :: history) := by
  have hduty := h.duty w rfl
  obtain ⟨source, fields, rest, acked, hstate, hbatch, hfronts, hturn⟩ := hduty.asks hrequest
  rw [hbatch] at hfronts
  have hrest := hfronts.rest h.outstanding.line
  obtain ⟨q, others, hpending, rfl⟩ := hfronts.first
  have hleft : (w.respond .done).batch = rest := by
    simp [Worker.respond, Worker.batchAfter, hstate, hbatch]
  have htold : ∀ x ∈ rest, Told (.acknowledged q.id.text :: history) x := fun x hx =>
    (hduty.told x (by rw [hbatch]; exact List.mem_cons_of_mem _ hx)).grow _
  constructor
  case mirrors => exact (h.mirrors.turn rfl).same hentries hlast
  case keeps => exact hkeeps
  case outstanding =>
    rw [hgroup]
    exact h.outstanding.acknowledge hpending
  case orderly => exact ⟨⟨q.id, rfl, h.isDue hpending, hturn⟩, h.orderly⟩
  case duty =>
    intro w' hw'
    cases hw'
    rw [hgroup]
    refine ⟨hduty.place, hduty.config, hleft ▸ htold, ?_⟩
    exact poised_next hduty.place hduty.config hleft (move_respond hstate _) rfl htold hrest
      (fun _ _ hzero => by cases hzero) (handsFree_acknowledged _)
  case free => exact fun hnone => by cases hnone

/-! ## Batches -/

/-- A worker that has got a batch. -/
theorem Course.fetch (h : Course m partition st (some w) history) {source : Source}
    (hstate : w.move.state = .fetching source) (hfree : HandsFree history)
    (hentries : st'.entries = st.entries) (hlast : st'.lastId = st.lastId)
    (hkeeps : st'.Keeps (fun entry _ => .acknowledged entry ∈ history) m.group)
    (houtstanding : Outstanding m.name history (st'.groupOf m.group)) {batch : List Handed}
    (htold : ∀ x ∈ batch, Told history x) (hfronts : Fronts batch source (st'.groupOf m.group))
    (hdone : source = .backlog → batch = [] → (st'.groupOf m.group).pending = []) :
    Course m partition st' (some (w.respond (.batch batch))) history := by
  have hduty := h.duty w rfl
  have hbatch : (w.respond (.batch batch)).batch = batch := by
    simp [Worker.respond, Worker.batchAfter, hstate]
  constructor
  case mirrors => exact h.mirrors.same hentries hlast
  case keeps => exact hkeeps
  case outstanding => exact houtstanding
  case orderly => exact h.orderly
  case duty =>
    intro w' hw'
    cases hw'
    refine ⟨hduty.place, hduty.config, by rw [hbatch]; exact htold, ?_⟩
    exact poised_next hduty.place hduty.config hbatch (move_respond hstate _) rfl htold hfronts
      (fun hsource hnone _ => hdone hsource hnone) hfree
  case free => exact fun hnone => by cases hnone

end Shifts

end EventRelay
