import EventRelay.Proofs.Backlog.Drained

/-!
# How long its backlog keeps a consumer

Every read begins with the first entry that is pending, so an entry that keeps raising is read again
as long as others are acknowledged beside it.  Each batch after which the consumer reads again has
settled an entry, and nothing else changes what is pending for it here: so there are at most as many
such batches as entries, and one more read.  The notes of a run tell of every read with what it
showed, so that the last batch can be told from those before it.

* `Turn`, `Course`: what happens while nobody else settles or takes over the consumer's entries;
  `Course.exists_run`: the runs of the backlog by which nobody takes an entry away.
* `Batch`, `Stands`: the account of a batch that is under way, and where the consumer stands; the
  entries that are pending and the reads so far make up at most one more than there were entries.
* `Noted`: why an entry was acknowledged, and what was read of one that raised.
* `backlog_ends`: how many reads there are, and what is true when the consumer turns to others.
-/

namespace EventRelay

namespace Backlog

open Consumer

/-! ## Notes -/

/-- What is noted of a consumer that works on its backlog. -/
inductive Note where
  /-- It reads its entries, and these are shown. -/
  | read (shown : List Handed)
  /-- A callback returns. -/
  | returned (entry : String)
  /-- A callback raises. -/
  | raised (entry : String)
  /-- An entry is acknowledged. -/
  | acknowledged (entry : String)
deriving DecidableEq

/-- Whether a note is of a read. -/
def Note.isRead : Note → Bool
  | read _ => true
  | _ => false

/-- The number of reads. -/
def reads (notes : List Note) : Nat := notes.countP Note.isRead

/-- A note is a read more if it is of a read. -/
@[simp] theorem reads_concat (notes : List Note) (x : Note) :
    reads (notes ++ [x]) = reads notes + if x.isRead then 1 else 0 := by
  unfold reads
  rw [List.countP_append, List.countP_singleton]

/-- A read showed an entry with these fields, or without any. -/
def Shown (notes : List Note) (entry : String) (fields : Option Fields) : Prop :=
  ∃ shown, .read shown ∈ notes ∧ (entry, fields) ∈ shown

/-- What was shown stays so as notes are added. -/
theorem Shown.append {notes : List Note} {entry : String} {fields : Option Fields}
    (h : Shown notes entry fields) (more : List Note) : Shown (notes ++ more) entry fields := by
  obtain ⟨shown, hread, hmem⟩ := h
  exact ⟨shown, List.mem_append_left _ hread, hmem⟩

/-- There is nothing to deliver: the entry was removed from its stream. -/
def IsBare : Option Fields → Prop
  | some (_ :: _) => False
  | _ => True

/-! ## What happens -/

section

variable (c : ConsumerConfig) (partition : Int)

/-- The identifiers of the entries that are pending for the consumer. -/
def ownIds (s : Loop) : List EntryId := ((s.group c partition).ownedBy c.name).map (·.id)

/-- They are in the order of the stream. -/
def InOrder (s : Loop) : Prop := (ownIds c partition s).Pairwise fun a b => a.lt b = true

/-- One thing that happens while a consumer works on its backlog and nobody else settles its entries
or takes them over, and what is noted of it.  No command of the broker fails, and the consumer is
not cancelled; a callback may return for an entry at one time and raise at another. -/
inductive Turn : Loop → List Note → Loop → Prop where
  /-- Time passes. -/
  | pass (s : Loop) (now : Instant) : Turn s [] { s with now }
  /-- The consumer reads its own entries. -/
  | read (s : Loop) {entries : List Handed} (hrequest : s.move.request = .readOwn)
      (h : s.streams.readOwn (c.stream partition) c.group c.name c.batch.toNat = .ok entries) :
      Turn s [.read entries] (s.respond c partition (.batch entries))
  /-- A callback returns. -/
  | returned (s : Loop) {d : Delivery} (hrequest : s.move.request = .handle d) :
      Turn s [.returned d.offset] (s.respond c partition .done)
  /-- A callback raises. -/
  | raised (s : Loop) {d : Delivery} (hrequest : s.move.request = .handle d) {e : Failure}
      (he : e.isCancellation = false) :
      Turn s [.raised d.offset] (s.respond c partition (.failed e))
  /-- An entry is acknowledged. -/
  | acknowledge (s : Loop) {entry : String} (hrequest : s.move.request = .acknowledge entry) :
      Turn s [.acknowledged entry]
        { s.respond c partition .done with
          streams := s.streams.acknowledge (c.stream partition) c.group entry }
  /-- Others change the streams: they may append entries, remove some, and work on their own. -/
  | elsewhere (s : Loop) {streams : Streams}
      (h : owned c partition { s with streams } = owned c partition s) :
      Turn s [] { s with streams }

/-- What happens one after the other from a state on, with the notes of all of it. -/
inductive Course (s : Loop) : List Note → Loop → Prop where
  /-- Nothing yet. -/
  | start : Course s [] s
  /-- One thing more. -/
  | step {notes more : List Note} {s' s'' : Loop} (h : Course s notes s')
      (hturn : Turn c partition s' more s'') : Course s (notes ++ more) s''

end

variable {c : ConsumerConfig} {partition : Int} {s s' : Loop} {batch n acked owes : Nat}
  {own todo : List String} {notes more : List Note} {entries rest : List Handed}
  {entry : String} {fields : Option Fields}

/-- Whatever happens here is a step of the backlog by which nobody takes an entry away. -/
theorem Turn.exists_step (h : Turn c partition s more s') :
    ∃ events, Step c partition s events s' ∧ ∀ x, .gone x ∉ events := by
  cases h with
  | pass now => exact ⟨_, .pass s now, fun _ => List.not_mem_nil⟩
  | read hrequest h => exact ⟨_, .read s hrequest h, fun _ => by simp⟩
  | returned hrequest => exact ⟨_, .returned s hrequest, fun _ => by simp⟩
  | raised hrequest he => exact ⟨_, .raised s hrequest he, fun _ => by simp⟩
  | acknowledge hrequest => exact ⟨_, .acknowledge s hrequest, fun _ => by simp⟩
  | elsewhere hsame =>
    refine ⟨_, .elsewhere s (hsame ▸ List.Sublist.refl _), fun x hx => ?_⟩
    obtain ⟨y, ⟨hmem, hnot⟩, -⟩ := mem_losses.mp hx
    exact hnot (hsame ▸ hmem)

/-- So a course is a run of the backlog, with what that has. -/
theorem Course.exists_run (h : Course c partition s notes s') :
    ∃ log, Run c partition s log s' ∧ ∀ x, .gone x ∉ log := by
  induction h with
  | start => exact ⟨[], .done s, fun _ => List.not_mem_nil⟩
  | step _ hturn ih =>
    obtain ⟨log, hrun, hnone⟩ := ih
    obtain ⟨events, hstep, hnone'⟩ := hturn.exists_step
    refine ⟨log ++ events, hrun.append hstep.run, fun x hx => ?_⟩
    exact (List.mem_append.mp hx).elim (hnone x) (hnone' x)

/-! ## The entries of the consumer -/

/-- The entries are known by their identifiers. -/
theorem owned_eq (s : Loop) : owned c partition s = (ownIds c partition s).map EntryId.text := by
  unfold owned ownIds
  rw [List.map_map]
  rfl

/-- The entries of a consumer are in order wherever the stream is, so in every state that a consumer
can come to. -/
theorem inOrder_of_orderly (h : s.Orderly c partition) : InOrder c partition s :=
  List.pairwise_map.mpr (h.inOrder.ordered.filter _)

/-- Entries in order are different ones. -/
theorem InOrder.nodup (h : InOrder c partition s) : (owned c partition s).Nodup := by
  rw [owned_eq]
  refine h.map _ fun a b hlt heq => ?_
  rw [EntryId.text_injective heq, EntryId.lt_irrefl] at hlt
  cases hlt

/-- What is left of entries in order is in order. -/
theorem InOrder.sublist (h : InOrder c partition s)
    (hsub : (owned c partition s').Sublist (owned c partition s)) : InOrder c partition s' := by
  rw [owned_eq, owned_eq] at hsub
  obtain ⟨ids, hids, hmap⟩ := List.sublist_map_iff.mp hsub
  have hsame : ownIds c partition s' = ids :=
    List.map_injective_iff.mpr (fun _ _ => EntryId.text_injective) hmap
  unfold InOrder
  rw [hsame]
  exact List.Pairwise.sublist hids h

/-- One entry fewer is left. -/
theorem length_filter_ne (hnodup : own.Nodup) (h : entry ∈ own) :
    (own.filter (· ≠ entry)).length + 1 = own.length := by
  have herase := hnodup.erase_eq_filter entry
  have hsame : own.filter (· ≠ entry) = own.erase entry := by
    rw [herase]
    exact List.filter_congr fun x _ => by simp [bne, BEq.beq]
  rw [hsame]
  have hpos := List.length_pos_of_mem h
  rw [List.length_erase_of_mem h]
  omega

/-! ## A batch under way -/

/-- The account of a batch of which these entries are still to be dealt with: so many of the others
were acknowledged, and so many notes at most are owed. -/
structure Batch (n : Nat) (notes : List Note) (own : List String) (entries : List Handed)
    (acked owes : Nat) : Prop where
  /-- The reads and what is pending make up no more than in the beginning, but for the read of this
  batch as long as nothing of it is acknowledged. -/
  budget : reads notes + own.length + min acked 1 ≤ n + 1
  /-- The entries are different ones. -/
  nodup : (entries.map (·.1)).Nodup
  /-- They are pending. -/
  pending : ∀ x ∈ entries, x.1 ∈ own
  /-- They were read so. -/
  shown : ∀ x ∈ entries, Shown notes x.1 x.2
  /-- After each read there are two notes at most for each entry. -/
  room : notes.length + owes ≤ reads notes * (2 * n + 1)

/-- The batch that was read last is the front of what is pending, and the callbacks raised for all
entries that were dealt with. -/
def OnlyRaised (batch : Nat) (notes : List Note) (own todo : List String) : Prop :=
  ∃ before shown tried, notes = before ++ .read shown :: tried.map .raised ∧
    shown.map (·.1) = own.take batch ∧ own.take batch = tried ++ todo

/-- A batch that was just read. -/
theorem batch_read (hreads : reads notes + own.length ≤ n)
    (hroom : notes.length ≤ reads notes * (2 * n + 1)) (hnodup : own.Nodup)
    (hshown : entries.map (·.1) = own.take batch) :
    Batch n (notes ++ [.read entries]) own entries 0 (2 * entries.length) where
  budget := by
    rw [reads_concat]
    simp only [Note.isRead, if_true]
    omega
  nodup := hshown ▸ hnodup.sublist (List.take_sublist _ _)
  pending x hx := (List.take_sublist batch own).subset (hshown ▸ List.mem_map_of_mem hx)
  shown x hx := ⟨entries, List.mem_append_right _ (List.mem_singleton_self _), hx⟩
  room := by
    have hlength : entries.length ≤ n := by
      calc entries.length
          = (own.take batch).length := by rw [← hshown, List.length_map]
        _ ≤ own.length := List.length_take_le' _ _
        _ ≤ n := by omega
    rw [reads_concat, List.length_append, List.length_singleton]
    simp only [Note.isRead, if_true, Nat.add_mul, Nat.one_mul]
    omega

/-- Something is noted that is no read. -/
theorem Batch.note (h : Batch n notes own entries acked (owes + 1)) {x : Note}
    (hx : x.isRead = false) : Batch n (notes ++ [x]) own entries acked owes where
  budget := by
    have hbudget := h.budget
    rw [reads_concat, hx]
    simpa using hbudget
  nodup := h.nodup
  pending := h.pending
  shown y hy := (h.shown y hy).append _
  room := by
    have hroom := h.room
    rw [reads_concat, hx, List.length_append, List.length_singleton]
    simp only [Bool.false_eq_true, if_false, Nat.add_zero]
    omega

/-- An entry is left behind. -/
theorem Batch.tail {x : Handed} (h : Batch n notes own (x :: rest) acked owes) :
    Batch n notes own rest acked owes where
  budget := h.budget
  nodup := (List.nodup_cons.mp h.nodup).2
  pending y hy := h.pending y (List.mem_cons_of_mem _ hy)
  shown y hy := h.shown y (List.mem_cons_of_mem _ hy)
  room := h.room

/-- Fewer notes may be owed. -/
theorem Batch.owe (h : Batch n notes own entries acked owes) {fewer : Nat} (hle : fewer ≤ owes) :
    Batch n notes own entries acked fewer :=
  { h with room := (Nat.add_le_add_left hle _).trans h.room }

/-- The entry in hand is acknowledged. -/
theorem Batch.acknowledge (h : Batch n notes own ((entry, fields) :: rest) acked (owes + 1))
    (hnodup : own.Nodup) :
    Batch n (notes ++ [.acknowledged entry]) (own.filter (· ≠ entry)) rest (acked + 1) owes := by
  obtain ⟨hnot, -⟩ := List.nodup_cons.mp h.nodup
  have hnoted := (h.note (x := .acknowledged entry) rfl).tail
  refine { hnoted with budget := ?_, pending := fun y hy => ?_ }
  · -- the first entry of a batch to be acknowledged pays for its read
    have hlength : (own.filter (· ≠ entry)).length + 1 = own.length :=
      length_filter_ne hnodup (h.pending _ List.mem_cons_self)
    have hbudget := hnoted.budget
    omega
  · refine List.mem_filter.mpr ⟨hnoted.pending y hy, decide_eq_true fun heq => hnot ?_⟩
    exact List.mem_map.mpr ⟨y, hy, heq⟩

/-- Another callback of the batch raises. -/
theorem OnlyRaised.raise (h : OnlyRaised batch notes own (entry :: todo)) :
    OnlyRaised batch (notes ++ [.raised entry]) own todo := by
  obtain ⟨before, shown, tried, rfl, hshown, hfront⟩ := h
  refine ⟨before, shown, tried ++ [entry], ?_, hshown, ?_⟩
  · rw [List.map_append, List.append_assoc]
    rfl
  · rw [hfront, List.append_assoc]
    rfl

/-! ## Where the consumer stands -/

/-- Where a consumer stands that works on its backlog, what it asks for, and how many reads it
took. -/
inductive Stands (batch n : Nat) (notes : List Note) (own : List String) :
    ConsumerState → ConsumerRequest → Prop where
  /-- It is about to read. -/
  | reading (hreads : reads notes + own.length ≤ n)
      (hroom : notes.length ≤ reads notes * (2 * n + 1)) :
      Stands batch n notes own (.fetching .backlog) .readOwn
  /-- A callback has an entry. -/
  | handling {d : Delivery} {fields : Option Fields} {rest : List Handed} {acked : Nat}
      (hbatch : Batch n notes own ((d.offset, fields) :: rest) acked (2 * (rest.length + 1)))
      (hfull : ¬ IsBare fields)
      (hraised : acked = 0 → OnlyRaised batch notes own (d.offset :: rest.map (·.1))) :
      Stands batch n notes own (.handling .backlog d.offset rest acked) (.handle d)
  /-- It acknowledges an entry: the callback returned, or there was nothing to deliver. -/
  | acking {entry : String} {fields : Option Fields} {rest : List Handed} {acked : Nat}
      (hbatch : Batch n notes own ((entry, fields) :: rest) acked (2 * rest.length + 1))
      (hcause : .returned entry ∈ notes ∨ IsBare fields) :
      Stands batch n notes own (.acking .backlog rest acked) (.acknowledge entry)
  /-- It turns to the entries of others. -/
  | turning (hreads : reads notes ≤ n + 1) (hroom : notes.length ≤ reads notes * (2 * n + 1))
      (hraised : OnlyRaised batch notes own []) :
      Stands batch n notes own (.fetching .idle) .takeOver

/-- The consumer goes on with a batch. -/
theorem stands_next (hbatch : Batch n notes own entries acked (2 * entries.length))
    (hraised : acked = 0 → OnlyRaised batch notes own (entries.map (·.1))) :
    Stands batch n notes own (next c partition .endless .backlog entries acked).state
      (next c partition .endless .backlog entries acked).request := by
  have hbudget := hbatch.budget
  cases entries with
  | nil =>
    have hroom := hbatch.room
    unfold next afterBatch
    dsimp only
    by_cases hacked : 0 < acked
    · rw [if_pos hacked]
      exact .reading (by omega) (by simpa using hroom)
    · rw [if_neg hacked]
      exact .turning (by omega) (by simpa using hroom) (hraised (by omega))
  | cons y rest =>
    obtain ⟨id, fields⟩ := y
    rw [List.length_cons] at hbatch
    rcases fields with _ | _ | ⟨f, fs⟩
    · exact .acking (hbatch.owe (by omega)) (.inr trivial)
    · exact .acking (hbatch.owe (by omega)) (.inr trivial)
    · exact .handling (d := .ofFields c.topic partition id (f :: fs)) hbatch not_false hraised

namespace Stands

variable {state : ConsumerState} {request : ConsumerRequest}

/-- A consumer that reads is about to read. -/
theorem of_readOwn (h : Stands batch n notes own state .readOwn) :
    state = .fetching .backlog ∧ reads notes + own.length ≤ n ∧
      notes.length ≤ reads notes * (2 * n + 1) := by
  cases h with
  | reading hreads hroom => exact ⟨rfl, hreads, hroom⟩

/-- A consumer that asks for a callback has an entry with something to deliver. -/
theorem of_handle {d : Delivery} (h : Stands batch n notes own state (.handle d)) :
    ∃ fields rest acked, state = .handling .backlog d.offset rest acked ∧
      Batch n notes own ((d.offset, fields) :: rest) acked (2 * (rest.length + 1)) ∧
      ¬ IsBare fields ∧
      (acked = 0 → OnlyRaised batch notes own (d.offset :: rest.map (·.1))) := by
  cases h with
  | handling hbatch hfull hraised => exact ⟨_, _, _, rfl, hbatch, hfull, hraised⟩

/-- A consumer that acknowledges an entry has a cause for it. -/
theorem of_acknowledge (h : Stands batch n notes own state (.acknowledge entry)) :
    ∃ fields rest acked, state = .acking .backlog rest acked ∧
      Batch n notes own ((entry, fields) :: rest) acked (2 * rest.length + 1) ∧
      (.returned entry ∈ notes ∨ IsBare fields) := by
  cases h with
  | acking hbatch hcause => exact ⟨_, _, _, rfl, hbatch, hcause⟩

/-- When a consumer turns to others the callbacks of its last batch raised. -/
theorem of_takeOver (h : Stands batch n notes own state .takeOver) :
    OnlyRaised batch notes own [] := by
  cases h with
  | turning hreads hroom hraised => exact hraised

/-- There are never more reads than entries in the beginning and one. -/
theorem reads_le (h : Stands batch n notes own state request) : reads notes ≤ n + 1 := by
  cases h with
  | reading hreads => omega
  | handling hbatch => exact le_trans (by omega) hbatch.budget
  | acking hbatch => exact le_trans (by omega) hbatch.budget
  | turning hreads => exact hreads

/-- There are never more notes than two for each entry of each read, and one for the read. -/
theorem length_le (h : Stands batch n notes own state request) :
    notes.length ≤ reads notes * (2 * n + 1) := by
  cases h with
  | reading hreads hroom => exact hroom
  | handling hbatch => exact (Nat.le_add_right _ _).trans hbatch.room
  | acking hbatch => exact (Nat.le_add_right _ _).trans hbatch.room
  | turning hreads hroom => exact hroom

end Stands

/-! ## What is noted of an entry -/

/-- Why an entry was acknowledged, and what was read of one whose callback raised. -/
structure Noted (notes : List Note) : Prop where
  /-- The callback of an acknowledged entry returned, or a read showed nothing to deliver. -/
  acknowledged : ∀ x, .acknowledged x ∈ notes →
    .returned x ∈ notes ∨ ∃ fields, IsBare fields ∧ Shown notes x fields
  /-- An entry whose callback raised was read with something to deliver. -/
  raised : ∀ x, .raised x ∈ notes → ∃ fields, ¬ IsBare fields ∧ Shown notes x fields

/-- What is noted of an entry stays right as notes are added that are right. -/
theorem Noted.append (h : Noted notes)
    (hacknowledged : ∀ x, .acknowledged x ∈ more →
      .returned x ∈ notes ∨ ∃ fields, IsBare fields ∧ Shown notes x fields)
    (hraised : ∀ x, .raised x ∈ more → ∃ fields, ¬ IsBare fields ∧ Shown notes x fields) :
    Noted (notes ++ more) where
  acknowledged x hx := by
    rcases (List.mem_append.mp hx).elim (h.acknowledged x) (hacknowledged x) with
      hreturned | ⟨fields, hbare, hshown⟩
    · exact .inl (List.mem_append_left _ hreturned)
    · exact .inr ⟨fields, hbare, hshown.append _⟩
  raised x hx := by
    obtain ⟨fields, hfull, hshown⟩ := (List.mem_append.mp hx).elim (h.raised x) (hraised x)
    exact ⟨fields, hfull, hshown.append _⟩

/-- A note that tells of neither adds nothing. -/
theorem Noted.silent (h : Noted notes) (hacknowledged : ∀ x, .acknowledged x ∉ more)
    (hraised : ∀ x, .raised x ∉ more) : Noted (notes ++ more) :=
  h.append (fun x hx => absurd hx (hacknowledged x)) fun x hx => absurd hx (hraised x)

/-- Where an entry is shown alike by all reads, it is not acknowledged if its callback only ever
raised. -/
theorem Noted.not_acknowledged (h : Noted notes) {x : String}
    (halike : ∀ fields fields', Shown notes x fields → Shown notes x fields' → fields = fields')
    (hraised : .raised x ∈ notes) (hnot : .returned x ∉ notes) : .acknowledged x ∉ notes := by
  intro hacknowledged
  obtain ⟨fields, hfull, hshown⟩ := h.raised x hraised
  obtain ⟨fields', hbare, hshown'⟩ := (h.acknowledged x hacknowledged).resolve_left hnot
  exact hfull (halike fields fields' hshown hshown' ▸ hbare)

/-! ## Runs -/

/-- What is known of a state and of the notes that led there. -/
structure Known (c : ConsumerConfig) (partition : Int) (n : Nat) (notes : List Note) (s : Loop) :
    Prop where
  /-- The consumer's entries are in order. -/
  ordered : InOrder c partition s
  /-- Where the consumer stands. -/
  stands : Stands c.batch.toNat n notes (owned c partition s) s.move.state s.move.request
  /-- What is noted of the entries. -/
  noted : Noted notes

/-- In the beginning the consumer is about to read. -/
theorem known_start (hordered : InOrder c partition s) (hmove : s.move = Consumer.start) :
    Known c partition (owned c partition s).length [] s where
  ordered := hordered
  stands := by
    rw [hmove]
    exact .reading (Nat.le_of_eq (Nat.zero_add _)) (Nat.zero_le _)
  noted := ⟨fun _ hx => absurd hx List.not_mem_nil, fun _ hx => absurd hx List.not_mem_nil⟩

section kept

variable (h : Known c partition n notes s)

include h

/-- What is known stays right when entries are read. -/
theorem Known.read (hrequest : s.move.request = .readOwn)
    (hread : s.streams.readOwn (c.stream partition) c.group c.name c.batch.toNat = .ok entries) :
    Known c partition n (notes ++ [.read entries]) (s.respond c partition (.batch entries)) := by
  obtain ⟨hordered, hstands, hnoted⟩ := h
  rw [hrequest] at hstands
  obtain ⟨hstate, hreads, hroom⟩ := hstands.of_readOwn
  have hshown := readOwn_owned hread
  refine ⟨hordered, ?_, hnoted.silent (by simp) (by simp)⟩
  unfold Loop.respond
  rw [hstate]
  refine stands_next (batch_read hreads hroom hordered.nodup hshown) fun _ => ?_
  exact ⟨notes, entries, [], rfl, hshown, hshown.symm⟩

/-- What is known stays right when a callback returns. -/
theorem Known.returned {d : Delivery} (hrequest : s.move.request = .handle d) :
    Known c partition n (notes ++ [.returned d.offset]) (s.respond c partition .done) := by
  obtain ⟨hordered, hstands, hnoted⟩ := h
  rw [hrequest] at hstands
  obtain ⟨fields, rest, acked, hstate, hbatch, -, -⟩ := hstands.of_handle
  refine ⟨hordered, ?_, hnoted.silent (by simp) (by simp)⟩
  unfold Loop.respond
  rw [hstate]
  exact .acking ((hbatch.owe (by omega)).note rfl)
    (.inl (List.mem_append_right _ (List.mem_singleton_self _)))

/-- What is known stays right when a callback raises. -/
theorem Known.raised {d : Delivery} (hrequest : s.move.request = .handle d) {e : Failure}
    (he : e.isCancellation = false) :
    Known c partition n (notes ++ [.raised d.offset]) (s.respond c partition (.failed e)) := by
  obtain ⟨hordered, hstands, hnoted⟩ := h
  rw [hrequest] at hstands
  obtain ⟨fields, rest, acked, hstate, hbatch, hfull, hraised⟩ := hstands.of_handle
  have hcarriesOn : ¬ e.isCancellation = true := Bool.eq_false_iff.mp he
  refine ⟨hordered, ?_, hnoted.append (fun x hx => ?_) fun x hx => ?_⟩
  · have hleft : Batch n (notes ++ [.raised d.offset]) (owned c partition s) rest acked
        (2 * rest.length) := ((hbatch.owe (by omega)).note rfl).tail
    unfold Loop.respond
    rw [hstate]
    simp only [advance, if_neg hcarriesOn]
    exact stands_next hleft fun hacked => (hraised hacked).raise
  · cases List.mem_singleton.mp hx
  · cases List.mem_singleton.mp hx
    exact ⟨fields, hfull, hbatch.shown _ List.mem_cons_self⟩

/-- What is known stays right when an entry is acknowledged. -/
theorem Known.acknowledge (hrequest : s.move.request = .acknowledge entry) :
    Known c partition n (notes ++ [.acknowledged entry])
      { s.respond c partition .done with
        streams := s.streams.acknowledge (c.stream partition) c.group entry } := by
  obtain ⟨hordered, hstands, hnoted⟩ := h
  rw [hrequest] at hstands
  obtain ⟨fields, rest, acked, hstate, hbatch, hcause⟩ := hstands.of_acknowledge
  unfold Loop.respond
  rw [hstate]
  refine ⟨hordered.sublist ?_, ?_, hnoted.append (fun x hx => ?_) fun x hx => ?_⟩
  · rw [owned_acknowledge]
    exact List.filter_sublist
  · rw [owned_acknowledge]
    exact stands_next (hbatch.acknowledge hordered.nodup) fun hacked => by omega
  · cases List.mem_singleton.mp hx
    exact hcause.imp_right fun hbare => ⟨fields, hbare, hbatch.shown _ List.mem_cons_self⟩
  · cases List.mem_singleton.mp hx

end kept

/-- Everything that happens keeps what is known. -/
theorem Turn.known (hturn : Turn c partition s more s') (h : Known c partition n notes s) :
    Known c partition n (notes ++ more) s' := by
  cases hturn with
  | pass now =>
    rw [List.append_nil]
    exact ⟨h.ordered, h.stands, h.noted⟩
  | read hrequest hread => exact h.read hrequest hread
  | returned hrequest => exact h.returned hrequest
  | raised hrequest he => exact h.raised hrequest he
  | acknowledge hrequest => exact h.acknowledge hrequest
  | elsewhere hsame =>
    rw [List.append_nil]
    refine ⟨h.ordered.sublist (hsame ▸ List.Sublist.refl _), ?_, h.noted⟩
    rw [hsame]
    exact h.stands

/-- It is right in every state of a course. -/
theorem Course.known (hcourse : Course c partition s notes s') (hordered : InOrder c partition s)
    (hmove : s.move = Consumer.start) :
    Known c partition (owned c partition s).length notes s' := by
  induction hcourse with
  | start => exact known_start hordered hmove
  | step _ hturn ih => exact hturn.known ih

/-- As long as the consumer has not turned to others, it goes on, where a read is served. -/
theorem Known.exists_turn (h : Known c partition n notes s)
    (hrequest : s.move.request ≠ .takeOver)
    (hserved : s.move.request = .readOwn → ∃ entries,
      s.streams.readOwn (c.stream partition) c.group c.name c.batch.toNat = .ok entries) :
    ∃ x s', Turn c partition s [x] s' := by
  have hstands := h.stands
  generalize s.move.state = state at hstands
  generalize hasked : s.move.request = request at hstands hrequest hserved
  cases hstands with
  | reading =>
    obtain ⟨entries, hread⟩ := hserved rfl
    exact ⟨_, _, .read s hasked hread⟩
  | handling => exact ⟨_, _, .returned s hasked⟩
  | acking => exact ⟨_, _, .acknowledge s hasked⟩
  | turning => exact absurd rfl hrequest

/-- A consumer that starts comes to the end of its backlog, whatever the callbacks do: there are at
most as many reads as entries and one, and a limited number of notes; and it goes on until it turns
to others.  When it does, it has just read the first entries that are pending, in order, and the
callback raised for each of them.  An entry that was acknowledged either had a callback that
returned, or there was nothing to deliver when it was read; so an entry that is shown alike by all
reads is not acknowledged if its callback only ever raised.  Reads differ only where others remove
an entry from its stream between them: as long as nobody else changes what is pending for the
consumer, with its fields, they show every entry alike (`Undisturbed.alike`). -/
theorem backlog_ends (hordered : InOrder c partition s) (hmove : s.move = Consumer.start)
    (hcourse : Course c partition s notes s') :
    reads notes ≤ (owned c partition s).length + 1 ∧
    notes.length ≤
      ((owned c partition s).length + 1) * (2 * (owned c partition s).length + 1) ∧
    (s'.move.request ≠ .takeOver →
      (s'.move.request = .readOwn → ∃ entries,
        s'.streams.readOwn (c.stream partition) c.group c.name c.batch.toNat = .ok entries) →
      ∃ x s'', Turn c partition s' [x] s'') ∧
    (s'.move.request = .takeOver → InOrder c partition s' ∧
      ∃ before shown, notes = before ++ .read shown :: shown.map (fun x => .raised x.1) ∧
        shown.map (·.1) = (owned c partition s').take c.batch.toNat) ∧
    (∀ x, .acknowledged x ∈ notes →
      .returned x ∈ notes ∨ ∃ fields, IsBare fields ∧ Shown notes x fields) ∧
    (∀ x, (∀ fields fields', Shown notes x fields → Shown notes x fields' → fields = fields') →
      .raised x ∈ notes → .returned x ∉ notes → .acknowledged x ∉ notes) := by
  have hknown := hcourse.known hordered hmove
  have hreads := hknown.stands.reads_le
  refine ⟨hreads, ?_, hknown.exists_turn, fun hrequest => ?_, hknown.noted.acknowledged,
    fun x => hknown.noted.not_acknowledged⟩
  · exact hknown.stands.length_le.trans (Nat.mul_le_mul_right _ hreads)
  · have hstands := hknown.stands
    rw [hrequest] at hstands
    obtain ⟨before, shown, tried, hnotes, hshown, hfront⟩ := hstands.of_takeOver
    rw [List.append_nil] at hfront
    refine ⟨hknown.ordered, before, shown, ?_, hshown⟩
    rw [hnotes, ← hfront, ← hshown, List.map_map]
    rfl

/-- Of three entries the second was removed from its stream. -/
def trimmed : Loop :=
  { restarted 2 with streams := (restarted 2).streams.erase "user-events:0" "1000000-1" }

/-- What the callback raises for the first of them. -/
def poison : Failure := .raised "ValueError" "poison"

/-- The second entry is acknowledged in the first batch and the third in the second; the third batch
is the last one. -/
theorem backlog_ends_of_trimmed :
    ∃ notes s', Course (worker 2) 0 trimmed notes s' ∧ s'.move.request = .takeOver ∧
      reads notes = 3 ∧ reads notes ≤ (owned (worker 2) 0 trimmed).length + 1 ∧
      ∃ before shown, notes = before ++ .read shown :: shown.map (fun x => .raised x.1) ∧
        shown.map (·.1) = (owned (worker 2) 0 s').take (worker 2).batch.toNat := by
  have hordered : InOrder (worker 2) 0 trimmed := by
    unfold InOrder
    decide +kernel
  have hfirst := (((Course.start.step (.read trimmed rfl rfl)).step
    (.raised (e := poison) _ rfl rfl)).step (.acknowledge _ rfl) :
      Course (worker 2) 0 trimmed _ _)
  have hsecond := (((hfirst.step (.read _ rfl rfl)).step (.raised (e := poison) _ rfl rfl)).step
    (.returned _ rfl)).step (.acknowledge _ rfl)
  have hthird := (hsecond.step (.read _ rfl rfl)).step (.raised (e := poison) _ rfl rfl)
  obtain ⟨hreads, -, -, hturned, -⟩ := backlog_ends hordered rfl hthird
  exact ⟨_, _, hthird, rfl, rfl, hreads, (hturned rfl).2⟩

end Backlog

end EventRelay
