import EventRelay.Proofs.Publisher.Custody
import EventRelay.Proofs.Publisher.Play
import Mathlib.Data.Set.Insert

/-!
# Entries of a key come in the order of their rows

Any number of publishers share an outbox and a broker, and no send of any of them may take as long
as a claim may last for any of them.  Then the entries of a topic and a key are in one stream, and
there an entry of a row never comes after one of a row that was appended later.

That each publisher keeps its own two limits apart is not enough: one with wide limits may still
be sending when another one, with narrow limits, has taken its claim back.

* `InTurn`: what that says of two entries of the journal.
* `Sequenced`: the invariant; the entries of a key belong to rows that are not after any unfinished
  row of the key.
* `key_order`: the main statement; `key_order_fails_across_limits`: a run of two publishers with
  limits that do not fit each other.
-/

namespace EventRelay

namespace Publisher

open Relay

variable {pubs : Set PublisherConfig} {b : Broker} {s s' : Relay}

/-- The second of two entries is not for an earlier row of the key of the first one. -/
def InTurn (births : List OutboxRow) (e e' : Posting) : Prop :=
  ∀ i i' row row', e.origin = some i → e'.origin = some i' → births[i]? = some row →
    births[i']? = some row' → row.key ≠ none → row'.key = row.key → i ≤ i'

/-- The entries of each key are in the order of its rows, and none of them is for a row after one
that is unfinished. -/
structure Sequenced (s : Relay) : Prop where
  /-- The entries are in turn. -/
  inTurn : s.journal.Pairwise (InTurn s.births)
  /-- An unfinished row comes not before the rows of its key that have entries. -/
  done : ∀ e ∈ s.journal, ∀ i row, e.origin = some i → s.births[i]? = some row → row.key ≠ none →
    ∀ r ∈ s.table, r.status.inFlight = true → r.key = row.key → i ≤ s.serial r.id

/-- In the beginning no entry is out of order. -/
theorem sequenced_start (desk : Session) : Sequenced (start desk) where
  inTurn := List.Pairwise.nil
  done _ he := absurd he List.not_mem_nil

/-! ## Steps that deliver no row -/

/-- Entries for no row come in turn wherever they are. -/
theorem pairwise_inTurn_append {births : List OutboxRow} {journal others : List Posting}
    (h : journal.Pairwise (InTurn births)) (hothers : ∀ e ∈ others, e.origin = none) :
    (journal ++ others).Pairwise (InTurn births) := by
  refine List.pairwise_append.mpr ⟨h, ?_, fun e _ e' he' i i' row row' _ hi' => ?_⟩
  · refine List.Pairwise.imp_of_mem (R := fun _ _ => True) (fun {e e'} he _ _ => ?_)
      (List.pairwise_of_forall fun _ _ => trivial)
    intro i i' row row' hi
    rw [hothers e he] at hi
    cases hi
  · rw [hothers e' he'] at hi'
    cases hi'

/-- Where no row is taken up and none delivered, the entries stay in order. -/
theorem Sequenced.drain (h : Sequenced s) (hbirths : s'.births = s.births)
    (hserial : s'.serial = s.serial) (htable : Outbox.Drains s'.table s.table)
    (others : List Posting) (hjournal : s'.journal = s.journal ++ others)
    (hothers : ∀ e ∈ others, e.origin = none) : Sequenced s' where
  inTurn := by
    rw [hbirths, hjournal]
    exact pairwise_inTurn_append h.inTurn hothers
  done e he i row hi hrow hkey r' hr' hflight hsame := by
    rw [hjournal] at he
    rw [hbirths] at hrow
    rw [hserial]
    rcases List.mem_append.mp he with he | he
    · obtain ⟨r, hr, hflight', heq⟩ := htable r' hr' hflight
      rw [OutboxRow.id_eq_of_asAppended heq]
      rw [OutboxRow.key_eq_of_asAppended heq] at hsame
      exact h.done e he i row hi hrow hkey r hr hflight' hsame
    · rw [hothers e he] at hi
      cases hi

/-- A new row comes after all entries. -/
theorem Sequenced.append (h : Sequenced s) (hfiled : Filed pubs b s) {new : OutboxRow}
    (ha : Appended s s' new) : Sequenced s' := by
  -- the row of an entry is no new one
  have hborn : ∀ e ∈ s.journal, ∀ i row, e.origin = some i → s'.births[i]? = some row →
      s.births[i]? = some row := by
    intro e he i row hi hrow
    obtain ⟨row', p, cfg, hrow', -⟩ := hfiled.posted e he i hi
    have hsame := getElem?_append_of_some hrow' [new]
    rw [ha.births, hsame] at hrow
    rw [hrow', hrow]
  constructor
  · rw [ha.journal]
    refine List.Pairwise.imp_of_mem (fun {e e'} he he' hturn => ?_) h.inTurn
    intro i i' row row' hi hi' hrow hrow'
    exact hturn i i' row row' hi hi' (hborn e he i row hi hrow) (hborn e' he' i' row' hi' hrow')
  · intro e he i row hi hrow hkey r hr hflight hsame
    rw [ha.journal] at he
    have hrow := hborn e he i row hi hrow
    rw [ha.table] at hr
    rw [ha.serial]
    dsimp only
    rcases List.mem_append.mp hr with hr | hr
    · rw [if_neg (Int.ne_of_lt (ha.above r hr))]
      exact h.done e he i row hi hrow hkey r hr hflight hsame
    · rw [List.mem_singleton.mp hr, if_pos rfl]
      obtain ⟨hlt, -⟩ := List.getElem?_eq_some_iff.mp hrow
      exact Nat.le_of_lt hlt

/-! ## Deliveries -/

/-- A message that is delivered is for the first unfinished row of its key, since its tick still
has the row. -/
theorem Sequenced.deliver (h : Sequenced s) (hfiled : Filed pubs b s) (hheads : s.table.Heads)
    (hcustody : Custody s) {t : Tick} {row : OutboxRow} {partition : Int}
    (hd : Delivered b s s' t row partition) : Sequenced s' := by
  obtain ⟨due, ending, hf, -⟩ := hd.airborne
  have hmem := Tick.mem_rows hf
  have hrow := hcustody.held t hd.tick row hmem
  have hprocessing := hcustody.claimed t hd.tick row hmem
  have hserial := hcustody.serial t hd.tick row hmem
  have hborn := hfiled.numbered.born row hrow
  have hnew : ∀ i r, (posting t row partition).origin = some i → s.births[i]? = some r →
      i = s.serial row.id ∧ r.key = row.key := by
    intro i r hi hr
    have hi' : i = s.serial row.id := (Option.some.inj hi).symm.trans hserial
    rw [hi', hborn] at hr
    exact ⟨hi', (OutboxRow.key_eq_of_asAppended (congrArg _ (Option.some.inj hr))).symm⟩
  constructor
  · rw [hd.births, hd.journal]
    refine List.pairwise_append.mpr ⟨h.inTurn, List.pairwise_singleton _ _, fun e he e' he' => ?_⟩
    intro i i' r r' hi hi' hr hr' hkey hsame
    rw [List.mem_singleton.mp he'] at hi'
    obtain ⟨rfl, hkey'⟩ := hnew i' r' hi' hr'
    refine h.done e he i r hi hr hkey row hrow ?_ (hkey'.symm.trans hsame)
    rw [hprocessing]
    rfl
  · intro e he i r hi hr hkey q hq hflight hsame
    rw [hd.journal] at he
    rw [hd.births] at hr
    rw [hd.table] at hq
    rw [hd.serial]
    rcases List.mem_append.mp he with he | he
    · exact h.done e he i r hi hr hkey q hq hflight hsame
    · rw [List.mem_singleton.mp he] at hi
      obtain ⟨rfl, hkey'⟩ := hnew i r hi hr
      rw [hkey'] at hkey hsame
      exact hfiled.serial_le hrow hq (hheads row hrow q hq hprocessing hkey hsame hflight)

/-- Every step keeps the entries of each key in the order of its rows. -/
theorem sequenced_step (hfiled : Filed pubs b s) (hheads : s.table.Heads)
    (hcustody : Custody s) (h : Sequenced s) (hstep : Step pubs b s s') : Sequenced s' := by
  cases effect_of_step hstep with
  | appended row ha => exact h.append hfiled ha
  | claimed cfg hcfg olderThan t hc =>
    have hordered := (Outbox.releaseStale_descends s.table olderThan cfg.maxRetries).ordered
      hfiled.numbered.ordered
    refine h.drain hc.births hc.serial ?_ [] (by rw [hc.journal, List.append_nil])
      fun e he => absurd he List.not_mem_nil
    rw [hc.table]
    exact (Outbox.drains_claim hordered.distinct).trans
      (Outbox.drains_map (Outbox.calm_afterRelease olderThan cfg.maxRetries))
  | delivered t row partition hd => exact h.deliver hfiled hheads hcustody hd
  | recorded t row result hr =>
    refine h.drain hr.births hr.serial ?_ [] (by rw [hr.journal, List.append_nil])
      fun e he => absurd he List.not_mem_nil
    rw [hr.table, Outbox.changeClaimed_snd]
    exact Outbox.drains_map (Outbox.calm_change row.id
      (asAppended_afterOutcome t.cfg s.now row result) (status_afterOutcome t.cfg s.now row result))
  | quiet hq =>
    obtain ⟨others, hjournal, hothers⟩ := hq.journal
    exact h.drain hq.births hq.serial (Outbox.drains_of_sublist hq.table) others hjournal
      hothers

/-- In every run of patient publishers the entries of each key are in order. -/
theorem sequenced_of_reachable (hpatient : Patient pubs) (h : Reachable pubs b s) :
    Sequenced s := by
  induction h with
  | start desk => exact sequenced_start desk
  | step hreach hstep ih =>
    exact sequenced_step (filed_of_reachable hreach) (heads_of_reachable hreach)
      (custody_of_reachable hpatient hreach) ih hstep

/-! ## The order of a key -/

/-- An entry of the journal was appended for a row, known by its number, of this topic and key. -/
def IsEntryOf (s : Relay) (topic key : String) (e : Posting) (i : Nat) : Prop :=
  e.origin = some i ∧ ∃ row, s.births[i]? = some row ∧ row.topic = topic ∧ row.key = some key

/-- No entry of a row of this topic and key comes after an entry of a later one. -/
def KeyInOrder (s : Relay) (topic key : String) : Prop :=
  s.journal.Pairwise fun e e' => ∀ i i', IsEntryOf s topic key e i → IsEntryOf s topic key e' i' →
    i ≤ i'

/-- All entries of this topic and key are in one stream. -/
def KeyInOneStream (s : Relay) (topic key : String) : Prop :=
  ∃ stream, ∀ e ∈ s.journal, ∀ i, IsEntryOf s topic key e i → e.stream = stream

/-- Where the books are right all entries of a key are in one stream. -/
theorem keyInOneStream_of_filed (h : Filed pubs b s) (topic key : String) :
    KeyInOneStream s topic key := by
  rcases hp : partitionFor key b.partitions with e | p
  · refine ⟨"", fun e he i hi => ?_⟩
    obtain ⟨hi, row, hrow, -, hkey⟩ := hi
    obtain ⟨row', p, cfg, hrow', hp', -⟩ := h.posted e he i hi
    rw [hrow] at hrow'
    cases hrow'
    unfold OutboxRow.routingKey at hp'
    rw [hkey, Option.getD_some, hp] at hp'
    cases hp'
  · refine ⟨streamName topic p, fun e he i hi => ?_⟩
    obtain ⟨hi, row, hrow, rfl, hkey⟩ := hi
    obtain ⟨row', p', cfg, hrow', hp', hstream, -⟩ := h.posted e he i hi
    rw [hrow] at hrow'
    cases hrow'
    unfold OutboxRow.routingKey at hp'
    rw [hkey, Option.getD_some, hp] at hp'
    cases hp'
    exact hstream

/-- Where entries are in the order of rows no key has one out of order. -/
theorem keyInOrder_of_sequenced (h : Sequenced s) (topic key : String) :
    KeyInOrder s topic key := by
  refine h.inTurn.imp fun {e e'} hturn i i' hi hi' => ?_
  obtain ⟨hi, row, hrow, -, hkey⟩ := hi
  obtain ⟨hi', row', hrow', -, hkey'⟩ := hi'
  refine hturn i i' row row' hi hi' hrow hrow' ?_ (hkey'.trans hkey.symm)
  rw [hkey]
  exact nofun

/-- Publishers whose claims do not last have no time to send either. -/
theorem timeout_neg_of_not_patient
    (hlimits : ∀ p ∈ pubs, ∀ q ∈ pubs, p.sendTimeout < q.staleAfter.rounded)
    (h : ¬ Patient pubs) : ∀ p ∈ pubs, p.sendTimeout < 0 := by
  intro p hp
  by_contra hnonneg
  refine h fun r hr q hq => ?_
  have hrq := hlimits r hr q hq
  have hpq := hlimits p hp q hq
  unfold Span at *
  omega

/-- Per-key order.  Where the time limit of a send of every publisher is below the stale limit of
every publisher, the entries of a topic and a key are those of its rows, all in one stream, in the
order in which the rows were appended; and what is in a stream is what was ever appended to it. -/
theorem key_order (hlimits : ∀ p ∈ pubs, ∀ q ∈ pubs, p.sendTimeout < q.staleAfter.rounded)
    (h : Reachable pubs b s) (topic key : String) :
    (∀ e ∈ s.journal, ∀ i, IsEntryOf s topic key e i →
      ∃ row, s.births[i]? = some row ∧ e.fields = .ofMessage key row.payload []) ∧
    KeyInOneStream s topic key ∧ KeyInOrder s topic key ∧
    ∀ stream, s.streams.contents stream =
      (s.journal.filter (·.stream = stream)).map (·.fields) := by
  have hfiled := filed_of_reachable h
  refine ⟨?_, keyInOneStream_of_filed hfiled topic key, ?_, mirrored_of_reachable h⟩
  · rintro e he i ⟨hi, row, hrow, -, hkey⟩
    obtain ⟨row', p, cfg, hrow', -, -, hfields, -⟩ := hfiled.posted e he i hi
    rw [hrow] at hrow'
    cases hrow'
    unfold OutboxRow.routingKey at hfields
    rw [hkey, Option.getD_some] at hfields
    exact ⟨row, hrow, hfields⟩
  · by_cases hpatient : Patient pubs
    · exact keyInOrder_of_sequenced (sequenced_of_reachable hpatient h) topic key
    · -- nothing is sent at all
      have hnone : ∀ e ∈ s.journal, ∀ i, e.origin ≠ some i := by
        intro e he i hi
        obtain ⟨row, p, cfg, -, -, -, -, hcfg, htime⟩ := hfiled.posted e he i hi
        have hneg := timeout_neg_of_not_patient hlimits hpatient cfg hcfg
        unfold Span at *
        omega
      refine List.Pairwise.imp_of_mem (R := fun _ _ => True) (fun {e e'} he _ _ => ?_)
        (List.pairwise_of_forall fun _ _ => trivial)
      exact fun i _ hi => absurd hi.1 (hnone e he i)

/-! ## Two runs -/

/-- A publisher with narrow limits. -/
def quickPublisher : PublisherConfig where
  batch := 10
  maxRetries := 10
  staleAfter := .ofSeconds 60
  sendTimeout := .ofSeconds 30
  retention := .ofSeconds 86400

/-- A publisher with wide limits. -/
def slowPublisher : PublisherConfig where
  batch := 10
  maxRetries := 10
  staleAfter := .ofSeconds 200
  sendTimeout := .ofSeconds 100
  retention := .ofSeconds 86400

/-- What a run shows of a key: the numbers of the rows of the entries, and the keys of rows. -/
def glance (s : Relay) : List (Option Nat) × List (String × Option String) :=
  (s.journal.map (·.origin), s.births.map fun row => (row.topic, row.key))

/-- A tick dies when its send is over, before it records the outcome.  The claim is taken back, the
row is sent once more, and then the next row of the key is sent. -/
def retriedRun : List Move :=
  [.append "users" "first" (some "k"), .append "users" "second" (some "k"),
    .claim quickPublisher [⟨.ofSeconds 10, .through⟩], .pass (.ofSeconds 10), .land 0 0,
    .leave 0, .pass (.ofSeconds 61), .claim quickPublisher [], .land 0 0, .record 0, .leave 0,
    .claim quickPublisher [], .land 0 0, .record 0, .leave 0]

/-- The order of the entries of this run, one row of which has two. -/
theorem key_order_of_retriedRun : ∃ s, Reachable {quickPublisher} ⟨3, none⟩ s ∧
    glance s = ([some 0, some 0, some 1], [("users", some "k"), ("users", some "k")]) ∧
    KeyInOneStream s "users" "k" ∧ KeyInOrder s "users" "k" := by
  have hplays : (plays ⟨3, none⟩ (start emptyDesk) retriedRun).map glance =
      some ([some 0, some 0, some 1], [("users", some "k"), ("users", some "k")]) := by
    decide +kernel
  obtain ⟨s, hs, hglance⟩ := Option.map_eq_some_iff.mp hplays
  have hreach : Reachable {quickPublisher} ⟨3, none⟩ s := by
    refine reachable_of_plays ?_ (.start emptyDesk) hs
    simp [retriedRun, Move.Uses, FairSends, Turn.IsHonest]
  have hlimits : ∀ p ∈ ({quickPublisher} : Set PublisherConfig),
      ∀ q ∈ ({quickPublisher} : Set PublisherConfig), p.sendTimeout < q.staleAfter.rounded := by
    rintro p rfl q rfl
    decide +kernel
  obtain ⟨-, hone, horder, -⟩ := key_order hlimits hreach "users" "k"
  exact ⟨s, hreach, hglance, hone, horder⟩

/-- The slow publisher sends a row for so long that the quick one takes the claim back, sends the
row and the next one of the key; then the first send comes through. -/
def crossingRun : List Move :=
  [.append "users" "first" (some "k"), .claim slowPublisher [⟨.ofSeconds 90, .through⟩],
    .pass (.ofSeconds 61), .claim quickPublisher [], .land 1 0, .record 1, .leave 1,
    .append "users" "second" (some "k"), .claim quickPublisher [], .land 1 0, .record 1, .leave 1,
    .pass (.ofSeconds 29), .land 0 0]

/-- It does not suffice that each publisher keeps its own limits apart. -/
theorem key_order_fails_across_limits : ∃ pubs b s,
    (∀ p ∈ pubs, p.sendTimeout < p.staleAfter.rounded) ∧ Reachable pubs b s ∧
    ¬ KeyInOrder s "users" "k" := by
  have hplays : (plays ⟨3, none⟩ (start emptyDesk) crossingRun).map glance =
      some ([some 0, some 1, some 0], [("users", some "k"), ("users", some "k")]) := by
    decide +kernel
  obtain ⟨s, hs, hglance⟩ := Option.map_eq_some_iff.mp hplays
  refine ⟨{slowPublisher, quickPublisher}, ⟨3, none⟩, s, ?_, ?_, fun horder => ?_⟩
  · rintro p (rfl | rfl) <;> decide +kernel
  · refine reachable_of_plays ?_ (.start emptyDesk) hs
    simp [crossingRun, Move.Uses, FairSends, Turn.IsHonest]
  · obtain ⟨horigins, hkeys⟩ := Prod.mk.inj hglance
    have hborn : ∀ i < 2, ∃ row, s.births[i]? = some row ∧ row.topic = "users" ∧
        row.key = some "k" := by
      intro i hi
      have hkey : (s.births.map fun row => (row.topic, row.key))[i]? =
          some ("users", some "k") := by
        rw [hkeys]
        rcases i with _ | _ | i
        · rfl
        · rfl
        · omega
      rw [List.getElem?_map] at hkey
      obtain ⟨row, hrow, heq⟩ := Option.map_eq_some_iff.mp hkey
      exact ⟨row, hrow, (Prod.mk.inj heq).1, (Prod.mk.inj heq).2⟩
    rcases hjournal : s.journal with _ | ⟨e₀, _ | ⟨e₁, _ | ⟨e₂, rest⟩⟩⟩
    · simp [hjournal] at horigins
    · simp [hjournal] at horigins
    · simp [hjournal] at horigins
    · simp only [hjournal, List.map_cons, List.cons.injEq] at horigins
      obtain ⟨-, h₁, h₂, -⟩ := horigins
      unfold KeyInOrder at horder
      rw [hjournal] at horder
      have hafter := (List.pairwise_cons.mp (List.pairwise_cons.mp horder).2).1 e₂
        List.mem_cons_self 1 0 ⟨h₁, hborn 1 (by decide)⟩ ⟨h₂, hborn 0 (by decide)⟩
      omega

end Publisher

end EventRelay
