import EventRelay.Proofs.Consumer.NoLoss
import EventRelay.Proofs.Handler.Ends
import EventRelay.Proofs.Lists
import Mathlib.Logic.Relation

/-!
# Keys tell entries apart

The key of a delivery joins its topic, its partition and its offset by dashes.  A topic may be
called anything, so the key cannot be read from the left: "users-1-5-0" could begin with the topic
"users" or with "users-1".  From the right it can.  An offset is two numbers with a dash between
them, and a partition is a number that is not negative, so behind the topic there are three parts
without a dash, and what is left in front of them is the topic.

So the ledger, which knows nothing but keys, knows entries: a call of the handler passes a delivery
over only where that very entry was processed, of whatever topics and partitions the others are.

* `Delivery.IsPlaced`: the coordinates of an entry; `isPlaced_of_request`: consumers hand over no
  others.
* `Delivery.place_eq_of_eventKey`: the key tells the coordinates.
* `Database.Records`: what the ledger knows; `records_step`: a step adds what was processed by it.
* `Truthful`: what a run preserves, with the answer of every call.
* `keys_tell_entries_apart`: the main statement.
-/

namespace EventRelay

/-! ## Coordinates -/

/-- The form of the identifiers of entries: digits, a dash and digits. -/
def IsOffset (offset : String) : Prop :=
  ∃ ms seq : List Char, (ms ≠ [] ∧ ∀ c ∈ ms, c.isDigit = true) ∧
    (seq ≠ [] ∧ ∀ c ∈ seq, c.isDigit = true) ∧ offset.toList = ms ++ '-' :: seq

/-- The identifier of an entry is written in that form. -/
theorem isOffset_text (id : EntryId) : IsOffset id.text :=
  ⟨Nat.toDigits 10 id.ms, Nat.toDigits 10 id.seq,
    ⟨Nat.toDigits_ne_nil, fun _ => Number.isDigit_of_mem_toDigits⟩,
    ⟨Nat.toDigits_ne_nil, fun _ => Number.isDigit_of_mem_toDigits⟩, id.toList_text⟩

namespace Delivery

/-- Where a delivery was read. -/
def place (d : Delivery) : Receipt := ⟨d.topic, d.partition, d.offset⟩

/-- A delivery whose coordinates are those of an entry, of any topic. -/
structure IsPlaced (d : Delivery) : Prop where
  /-- Partitions are counted from zero. -/
  partition : 0 ≤ d.partition
  /-- The offset has the form of an identifier. -/
  offset : IsOffset d.offset

/-- What a consumer makes of an entry is a delivery of an entry. -/
theorem isPlaced_ofFields {partition : Int} (hpartition : 0 ≤ partition) (topic : String)
    (id : EntryId) (fields : Fields) : (ofFields topic partition id.text fields).IsPlaced :=
  ⟨hpartition, isOffset_text id⟩

variable {d d' : Delivery}

/-- Behind the topic there are three parts, and none of them has a dash. -/
theorem IsPlaced.exists_parts (h : d.IsPlaced) :
    ∃ ms seq, '-' ∉ (toString d.partition).toList ∧ '-' ∉ ms ∧ '-' ∉ seq ∧
      d.offset.toList = ms ++ '-' :: seq ∧
      d.eventKey.toList =
        ((d.topic.toList ++ '-' :: (toString d.partition).toList) ++ '-' :: ms) ++ '-' :: seq := by
  obtain ⟨ms, seq, ⟨-, hms⟩, ⟨-, hseq⟩, hoffset⟩ := h.offset
  have hpartition : (toString d.partition).toList = Nat.toDigits 10 d.partition.natAbs := by
    rw [Number.toList_toString, if_neg (Int.not_lt.mpr h.partition), List.nil_append]
  refine ⟨ms, seq, ?_, Number.dash_notMem hms, Number.dash_notMem hseq, hoffset, ?_⟩
  · rw [hpartition]
    exact Number.dash_notMem fun _ => Number.isDigit_of_mem_toDigits
  · have hkey : d.eventKey = d.topic ++ "-" ++ toString d.partition ++ "-" ++ d.offset := rfl
    simp [hkey, hoffset]

/-- The key of a delivery tells where it was read: its parts are taken off from the right. -/
theorem place_eq_of_eventKey (hd : d.IsPlaced) (hd' : d'.IsPlaced)
    (h : d.eventKey = d'.eventKey) : d.place = d'.place := by
  obtain ⟨ms, seq, hpartition, hms, hseq, hoffset, hkey⟩ := hd.exists_parts
  obtain ⟨ms', seq', hpartition', hms', hseq', hoffset', hkey'⟩ := hd'.exists_parts
  rw [h, hkey'] at hkey
  -- what is left when the offset and the partition are taken off is the topic, dashes and all
  obtain ⟨hfront, rfl⟩ := eq_of_append_cons_of_notMem hseq' hseq hkey
  obtain ⟨hplace, rfl⟩ := eq_of_append_cons_of_notMem hms' hms hfront
  obtain ⟨htopic, hnumber⟩ := eq_of_append_cons_of_notMem hpartition' hpartition hplace
  unfold place
  rw [String.toList_injective htopic, Number.toString_injective (String.toList_injective hnumber),
    String.toList_injective (hoffset'.trans hoffset.symm)]

/-- A partition below zero would be taken for one above it with another topic, and an offset of one
number for the end of an offset of two. -/
example :
    (⟨"users", -1, "5-0", "", none, []⟩ : Delivery).eventKey =
      (⟨"users-", 1, "5-0", "", none, []⟩ : Delivery).eventKey ∧
    (⟨"users-1", 5, "0", "", none, []⟩ : Delivery).eventKey =
      (⟨"users", 1, "5-0", "", none, []⟩ : Delivery).eventKey := by
  decide +kernel

/-- The key tells the place and nothing else. -/
theorem eventKey_eq_of_place (h : d.place = d'.place) : d.eventKey = d'.eventKey := by
  obtain ⟨htopic, hpartition, hoffset⟩ := Receipt.mk.inj h
  unfold eventKey
  rw [htopic, hpartition, hoffset]

/-- Among deliveries of entries, one has the key of a delivery if it was read in the same place. -/
theorem exists_eventKey_iff {known : List Delivery} (hknown : ∀ x ∈ known, x.IsPlaced)
    (hd : d.IsPlaced) :
    (∃ x ∈ known, x.eventKey = d.eventKey) ↔ d.place ∈ known.map place := by
  rw [List.mem_map]
  constructor
  · rintro ⟨x, hx, hkey⟩
    exact ⟨x, hx, place_eq_of_eventKey (hknown x hx) hd hkey⟩
  · rintro ⟨x, hx, hplace⟩
    exact ⟨x, hx, eventKey_eq_of_place hplace⟩

end Delivery

/-- Whatever a consumer of a partition hands over was read in the place of an entry. -/
theorem Consumer.isPlaced_of_request {g : Subscription} {rules : Work.Rules} {s : Crew} {w : Worker}
    {d : Delivery} (hfaithful : Handler.Faithful rules) (h : Reachable g rules s)
    (hw : w ∈ s.workers) (hpartition : 0 ≤ w.partition) (hrequest : w.move.request = .handle d) :
    d.IsPlaced := by
  have hfit := (intact_of_reachable hfaithful h).fit w hw
  cases hfit.placed with
  | fetching source hstate hno => exact absurd hrequest (hno.1 d)
  | handling source entry f fs rest acked hstate hbatch hgiven hattempted =>
    rw [hgiven] at hrequest
    cases hrequest
    have hfirst : (entry, some (f :: fs)) ∈ w.batch := by
      rw [hbatch]
      exact List.mem_cons_self
    obtain ⟨id, hid, -⟩ := hfit.vouched _ hfirst
    dsimp only at hid
    rw [← hid]
    exact Delivery.isPlaced_ofFields hpartition _ id _
  | acking source entry fields rest acked hstate hbatch hgiven haccounted =>
    rw [hgiven] at hrequest
    cases hrequest
  | resting backlog hstate hno => exact absurd hrequest (hno.1 d)

/-! ## What the ledger knows -/

/-- The ledger has the keys of these deliveries, and no others. -/
def Database.Records (db : Database) (known : List Delivery) : Prop :=
  ∀ key, db.isRecorded key = true ↔ ∃ d ∈ known, d.eventKey = key

namespace Database

variable {db db' : Database} {known : List Delivery} {d : Delivery}

/-- What the ledger has is told by the ledger alone. -/
theorem Records.of_ledger (h : db.Records known) (hledger : db'.ledger = db.ledger) :
    db'.Records known := fun key => by
  rw [isRecorded_congr hledger]
  exact h key

/-- One row more is one delivery more. -/
theorem Records.add (h : db.Records known) {row : LedgerRow} (hkey : row.eventKey = d.eventKey)
    (hledger : db'.ledger = db.ledger ++ [row]) : db'.Records (d :: known) := fun key => by
  rw [isRecorded_append_iff hledger, h key, hkey, List.exists_mem_cons_iff]
  exact or_comm

section

variable (h : db.Records known) (hknown : ∀ x ∈ known, x.IsPlaced) (hd : d.IsPlaced)

include h hknown hd

/-- The ledger finds a delivery where that very entry is recorded. -/
theorem Records.isRecorded_iff :
    db.isRecorded d.eventKey = true ↔ d.place ∈ known.map Delivery.place :=
  (h d.eventKey).trans (Delivery.exists_eventKey_iff hknown hd)

/-- A delivery breaks the constraint on keys where that very entry is recorded. -/
theorem Records.record_eq_error_iff (now : Instant) :
    db.record d.eventKey now = .error .constraint ↔ d.place ∈ known.map Delivery.place := by
  rw [← h.isRecorded_iff hknown hd]
  unfold record
  by_cases hrecorded : db.isRecorded d.eventKey = true
  · rw [if_pos hrecorded]
    exact iff_of_true rfl hrecorded
  · rw [if_neg hrecorded]
    exact iff_of_false nofun hrecorded

end

end Database

/-! ## Answers -/

namespace Handler

open Work Relation

variable {rules : Rules} {s s' : Handlers} {e : Ended} {ended : List Ended}
  {past known : List Delivery}

/-- The delivery of a call that was answered with success. -/
def Ended.processed? (e : Ended) : Option Delivery :=
  match e.result with
  | .ok .processed => some e.delivery
  | _ => none

/-- The deliveries of the calls that were answered with success, latest first. -/
def processedBy (ended : List Ended) : List Delivery := ended.filterMap Ended.processed?

/-- A call that was answered with success adds its delivery. -/
theorem processedBy_cons (h : e.result = .ok .processed) :
    processedBy (e :: ended) = e.delivery :: processedBy ended :=
  List.filterMap_cons_some (by rw [Ended.processed?, h])

/-- Any other call adds none. -/
theorem processedBy_cons_of_ne (h : e.result ≠ .ok .processed) :
    processedBy (e :: ended) = processedBy ended := by
  refine List.filterMap_cons_none ?_
  unfold Ended.processed?
  split
  · rename_i hresult
    exact absurd hresult h
  · rfl

/-- A delivery that was processed is the one of a call. -/
theorem exists_of_mem_processedBy {d : Delivery} (h : d ∈ processedBy ended) :
    ∃ e ∈ ended, e.delivery = d := by
  obtain ⟨e, he, hd⟩ := List.mem_filterMap.mp h
  refine ⟨e, he, ?_⟩
  unfold Ended.processed? at hd
  split at hd
  · exact Option.some.inj hd
  · cases hd

/-- A call that gives an answer tells whether the key of its delivery is one of these. -/
def Ended.TellsOf (e : Ended) (known : List Delivery) : Prop :=
  ∀ outcome, e.result = .ok outcome →
    (outcome = .alreadyProcessed ↔ ∃ d ∈ known, d.eventKey = e.delivery.eventKey)

/-- What calls preserve that find these deliveries in the ledger at the beginning. -/
structure Truthful (rules : Rules) (past : List Delivery) (s : Handlers) : Prop where
  /-- They are right. -/
  sound : Sound rules s
  /-- The ledger knows what was processed, before and by them. -/
  ledger : s.stored.Records (processedBy s.ended ++ past)
  /-- Every answer is true of what had been processed when it was given. -/
  answers : ∀ e earlier, e :: earlier <:+ s.ended → e.TellsOf (processedBy earlier ++ past)

/-- A step adds to the ledger what is processed by it. -/
theorem records_step (hs : Sound rules s) (hstep : Step rules s s')
    (h : s.stored.Records (processedBy s.ended ++ past)) :
    s'.stored.Records (processedBy s'.ended ++ past) := by
  cases ending_of_step hs hstep with
  | none hended hledger =>
    rw [hended]
    exact h.of_ledger hledger
  | one e hended hdelivery hentered =>
    rw [hended]
    cases hentered with
    | recorded hresult hnew row hkey hledger =>
      rw [processedBy_cons hresult]
      exact h.add hkey hledger
    | nothing hresult hledger =>
      rw [processedBy_cons_of_ne hresult]
      exact h.of_ledger hledger

/-- A call that ends tells what the ledger knew before. -/
theorem tellsOf_of_entered {before after : Database} (h : before.Records known)
    (hentered : Entered e before after)
    (hrecorded : e.result = .ok .alreadyProcessed →
      after.isRecorded e.delivery.eventKey = true) : e.TellsOf known := by
  intro outcome houtcome
  rw [← h e.delivery.eventKey]
  cases hentered with
  | recorded hresult hnew row hkey hledger =>
    rw [hresult] at houtcome
    cases houtcome
    rw [hnew]
    exact iff_of_false nofun Bool.false_ne_true
  | nothing hresult hledger =>
    cases outcome with
    | processed => exact absurd houtcome hresult
    | alreadyProcessed =>
      rw [← Database.isRecorded_congr hledger]
      exact iff_of_true rfl (hrecorded houtcome)

/-- A step in which a call ends adds one answer, and it is true of what the ledger knew before. -/
theorem truthful_step (hfaithful : Faithful rules) (h : Truthful rules past s)
    (hstep : Step rules s s') : Truthful rules past s' := by
  have hsound := sound_step h.sound hstep
  refine ⟨hsound, records_step h.sound hstep h.ledger, ?_⟩
  cases ending_of_step h.sound hstep with
  | none hended hledger =>
    rw [hended]
    exact h.answers
  | one e hended hdelivery hentered =>
    intro e' earlier hsuffix
    rw [hended] at hsuffix
    rcases List.suffix_cons_iff.mp hsuffix with hlast | hbefore
    · obtain ⟨rfl, rfl⟩ := List.cons.inj hlast
      refine tellsOf_of_entered h.ledger hentered fun hresult => ?_
      refine hsound.recorded e' ?_ _ hresult fun _ => hfaithful
      rw [hended]
      exact List.mem_cons_self
    · exact h.answers e' earlier hbefore

/-- From any tables on, calls tell the truth about what was recorded before. -/
theorem truthful_of_steps (hfaithful : Faithful rules) {stored : Database}
    (hpast : stored.Records past) (h : ReflTransGen (Step rules) ⟨stored, [], [], 0⟩ s) :
    Truthful rules past s := by
  induction h with
  | refl =>
    refine ⟨sound_of_reachable (.start stored), hpast, fun e earlier hsuffix => ?_⟩
    cases List.suffix_nil.mp hsuffix
  | tail _ hstep ih => exact truthful_step hfaithful ih hstep

/-- A call answers that its delivery was processed before where its own entry had been. -/
theorem Truthful.answer_iff (h : Truthful rules past s) (hpast : ∀ d ∈ past, d.IsPlaced)
    (hplaced : ∀ e ∈ s.ended, e.delivery.IsPlaced) {earlier : List Ended}
    (hsuffix : e :: earlier <:+ s.ended) {outcome : HandleOutcome}
    (hresult : e.result = .ok outcome) :
    outcome = .alreadyProcessed ↔
      e.delivery.place ∈ (processedBy earlier ++ past).map Delivery.place := by
  have hmem := hsuffix.subset
  have hknown : ∀ d ∈ processedBy earlier ++ past, d.IsPlaced := by
    intro d hd
    rcases List.mem_append.mp hd with hd | hd
    · obtain ⟨e', he', rfl⟩ := exists_of_mem_processedBy hd
      exact hplaced e' (hmem (List.mem_cons_of_mem e he'))
    · exact hpast d hd
  exact (h.answers e earlier hsuffix outcome hresult).trans
    (Delivery.exists_eventKey_iff hknown (hplaced e (hmem List.mem_cons_self)))

/-- Deliveries of entries have the same key only if they come from one topic, one partition and one
offset.  So where the ledger records deliveries of entries, it finds a delivery, and refuses to
record it, exactly where its own entry is recorded.  And in every run of calls of the handler whose
deliveries are of entries, such as consumers hand over, a call answers that its delivery was
processed before exactly where its own entry had been.  Only that the database breaks a constraint
where one is broken, and not of its own accord, is taken for granted. -/
theorem keys_tell_entries_apart :
    (∀ d d' : Delivery, d.IsPlaced → d'.IsPlaced → d.eventKey = d'.eventKey →
      d.topic = d'.topic ∧ d.partition = d'.partition ∧ d.offset = d'.offset) ∧
    (∀ (db : Database) (known : List Delivery), db.Records known → (∀ x ∈ known, x.IsPlaced) →
      ∀ d : Delivery, d.IsPlaced → ∀ now,
        (db.isRecorded d.eventKey = true ↔ d.place ∈ known.map Delivery.place) ∧
        (db.record d.eventKey now = .error .constraint ↔ d.place ∈ known.map Delivery.place)) ∧
    ∀ rules : Rules, Faithful rules →
      (∀ (g : Consumer.Subscription) (crew : Crew), Consumer.Reachable g rules crew →
        ∀ w ∈ crew.workers, 0 ≤ w.partition → ∀ d, w.move.request = .handle d → d.IsPlaced) ∧
      ∀ (stored : Database) (past : List Delivery) (s : Handlers), stored.Records past →
        ReflTransGen (Step rules) ⟨stored, [], [], 0⟩ s → (∀ d ∈ past, d.IsPlaced) →
        (∀ e ∈ s.ended, e.delivery.IsPlaced) →
        ∀ e earlier, e :: earlier <:+ s.ended → ∀ outcome, e.result = .ok outcome →
          (outcome = .alreadyProcessed ↔
            e.delivery.place ∈ (processedBy earlier ++ past).map Delivery.place) := by
  refine ⟨fun d d' hd hd' hkey => ?_, fun db known hrecords hknown d hd now => ?_,
    fun rules hfaithful => ⟨fun g crew hreach w hw hpartition d hrequest => ?_,
      fun stored past s hrecords hsteps hpast hplaced e earlier hsuffix outcome hresult => ?_⟩⟩
  · exact Receipt.mk.inj (Delivery.place_eq_of_eventKey hd hd' hkey)
  · exact ⟨hrecords.isRecorded_iff hknown hd, hrecords.record_eq_error_iff hknown hd now⟩
  · exact Consumer.isPlaced_of_request hfaithful hreach hw hpartition hrequest
  · have htruthful := truthful_of_steps hfaithful hrecords hsteps
    exact htruthful.answer_iff hpast hplaced hsuffix hresult

/-! ## Tangled topics -/

/-- A delivery of an entry of that topic. -/
def entryOf (topic : String) (partition : Int) (id : EntryId) : Delivery :=
  .ofFields topic partition id.text [("payload", "user.deleted (7)")]

/-- The tables with a record of an entry of a topic of dead letters. -/
def oneRecord : Database :=
  { twoTasks with ledger := [⟨1, (entryOf "users.DLT" 1 ⟨5, 0⟩).eventKey, .origin⟩] }

/-- The ledger in the beginning has that one record. -/
theorem records_oneRecord : oneRecord.Records [entryOf "users.DLT" 1 ⟨5, 0⟩] := by
  intro key
  simp [Database.isRecorded, oneRecord]

/-- A call of the handler with nobody else about. -/
def serveAlone (s : Handlers) (d : Delivery) : Handlers :=
  goOn (begin s true d (opened s.stored .none))

/-- A call with nobody else about is a run. -/
theorem steps_serveAlone (hidle : s.running = []) (d : Delivery) :
    ReflTransGen (Step rules) s (serveAlone s d) := by
  have hbegin : Step rules s (begin s true d (opened s.stored .none)) :=
    .begin s true d _ rfl rfl DbScript.within_none
  have hrunning : (begin s true d (opened s.stored .none)).running ≠ [] := by
    simp [begin]
  refine (ReflTransGen.single hbegin).tail (step_goOn hrunning ?_)
  simp [begin, hidle, Unblocked]

/-- Entries whose keys begin alike. -/
def tangledEntries : List Delivery :=
  [entryOf "users" 1 ⟨5, 0⟩, entryOf "users-1" 5 ⟨0, 7⟩, entryOf "users" 1 ⟨5, 0⟩,
    entryOf "users.DLT" 1 ⟨5, 0⟩]

/-- They are handled one after another. -/
def tangledRun : Handlers := tangledEntries.foldl serveAlone ⟨oneRecord, [], [], 0⟩

/-- The entries are handled in a run. -/
theorem steps_tangledRun : ReflTransGen (Step rules) ⟨oneRecord, [], [], 0⟩ tangledRun := by
  have hone : ReflTransGen (Step rules) ⟨oneRecord, [], [], 0⟩
      (serveAlone ⟨oneRecord, [], [], 0⟩ (entryOf "users" 1 ⟨5, 0⟩)) := steps_serveAlone rfl _
  have htwo := hone.trans (steps_serveAlone (by decide +kernel) (entryOf "users-1" 5 ⟨0, 7⟩))
  have hthree := htwo.trans (steps_serveAlone (by decide +kernel) (entryOf "users" 1 ⟨5, 0⟩))
  exact hthree.trans (steps_serveAlone (by decide +kernel) (entryOf "users.DLT" 1 ⟨5, 0⟩))

/-- All of them are deliveries of entries. -/
theorem isPlaced_of_mem_tangledRun : ∀ e ∈ tangledRun.ended, e.delivery.IsPlaced := by
  have hdeliveries : tangledRun.ended.map (·.delivery) = tangledEntries.reverse := by
    decide +kernel
  intro e he
  have hmem : e.delivery ∈ tangledEntries.reverse := hdeliveries ▸ List.mem_map_of_mem he
  simp only [tangledEntries, List.mem_reverse, List.mem_cons, List.not_mem_nil, or_false] at hmem
  rcases hmem with h | h | h | h
  all_goals
    rw [h]
    exact Delivery.isPlaced_ofFields (by decide) _ _ _

/-- The two new entries are both processed.  The first of them is passed over when it comes again,
and so is the one that was recorded at the beginning. -/
theorem keys_tell_entries_apart_of_tangledRun :
    tangledEntries.map (·.eventKey) =
        ["users-1-5-0", "users-1-5-0-7", "users-1-5-0", "users.DLT-1-5-0"] ∧
      tangledRun.ended.map (·.result.toOption) =
        [some .alreadyProcessed, some .alreadyProcessed, some .processed, some .processed] ∧
      (∀ e earlier, e :: earlier <:+ tangledRun.ended → ∀ outcome, e.result = .ok outcome →
        (outcome = .alreadyProcessed ↔ e.delivery.place ∈
          (processedBy earlier ++ [entryOf "users.DLT" 1 ⟨5, 0⟩]).map Delivery.place)) ∧
      oneRecord.isRecorded (entryOf "users" 1 ⟨5, 0⟩).eventKey = false ∧
      oneRecord.record (entryOf "users.DLT" 1 ⟨5, 0⟩).eventKey 0 = .error .constraint ∧
      ∃ w ∈ (Consumer.ticks Consumer.userEvents 3 Consumer.ready).workers, ∃ d,
        w.move.request = .handle d ∧ d.eventKey = "user-events-0-1000000-0" ∧ d.IsPlaced := by
  obtain ⟨-, htables, hruns⟩ := keys_tell_entries_apart
  obtain ⟨hconsumers, hanswers⟩ := hruns orderly faithful_orderly
  have hpast : ∀ d ∈ [entryOf "users.DLT" 1 ⟨5, 0⟩], d.IsPlaced := fun d hd =>
    List.mem_singleton.mp hd ▸ Delivery.isPlaced_ofFields (by decide) _ _ _
  have hentry : ∀ topic, (entryOf topic 1 ⟨5, 0⟩).IsPlaced := fun topic =>
    Delivery.isPlaced_ofFields (by decide) topic _ _
  refine ⟨by decide +kernel, by decide +kernel,
    hanswers oneRecord _ tangledRun records_oneRecord steps_tangledRun hpast
      isPlaced_of_mem_tangledRun, ?_, ?_, ?_⟩
  · rw [← Bool.not_eq_true, (htables oneRecord _ records_oneRecord hpast _ (hentry "users") 0).1]
    decide +kernel
  · rw [(htables oneRecord _ records_oneRecord hpast _ (hentry "users.DLT") 0).2]
    decide +kernel
  · have hreach : Consumer.Reachable Consumer.userEvents orderly
        (Consumer.ticks Consumer.userEvents 3 Consumer.ready) :=
      Consumer.reachable_ticks Consumer.reachable_ready 3
    exact ⟨_, List.mem_cons_self, _, rfl, by decide +kernel,
      hconsumers _ _ hreach _ List.mem_cons_self (Int.le_refl 0) _ rfl⟩

end Handler

end EventRelay
