import EventRelay.Proofs.Stream.Entries

/-!
# The history of a partition

What happens on a partition with a single worker, told event by event, and what may happen next.
An entry's turn comes when every earlier entry of the stream is acknowledged or removed.  It ends
with the acknowledgement of the entry, or the worker stops and the entry has its turn again.

* `Allowed`: what may happen next; `Orderly`: a history in which nothing else has happened.
* `InTurn`: entries are dispatched and acknowledged in the order of the stream, none twice without
  need and none skipped.
* `inTurn_of_orderly`: every orderly history is like that.
-/

namespace EventRelay

namespace Shifts

/-- Something that happens on a partition. -/
inductive Event where
  /-- An entry is appended. -/
  | appended (id : EntryId) (fields : Fields)
  /-- The entry whose identifier is written so is removed, if there is one. -/
  | removed (entry : String)
  /-- A delivery is given to the callback. -/
  | dispatched (d : Delivery)
  /-- The entry whose identifier is written so is acknowledged. -/
  | acknowledged (entry : String)
  /-- The worker is gone. -/
  | stopped
deriving DecidableEq

/-- Whether the worker did it. -/
def Event.isTurn : Event → Bool
  | .dispatched _ => true
  | .acknowledged _ => true
  | .stopped => true
  | _ => false

/-- The last thing that the worker did; histories begin with what happened last. -/
def lastTurn? (history : List Event) : Option Event := history.find? (·.isTurn)

/-- The first thing that the worker did. -/
def firstTurn? (history : List Event) : Option Event := lastTurn? history.reverse

/-- No entry has its turn. -/
def HandsFree (history : List Event) : Prop := ∀ d, lastTurn? history ≠ some (.dispatched d)

/-- Whatever comes before an entry in the stream was acknowledged by some time, unless it was
removed. -/
def Cleared (history byThen : List Event) (id : EntryId) : Prop :=
  ∀ id' fields, .appended id' fields ∈ history → id'.lt id = true →
    .acknowledged id'.text ∈ byThen ∨ .removed id'.text ∈ byThen

/-- The turn of an entry has come. -/
structure IsDue (history : List Event) (id : EntryId) : Prop where
  /-- It is an entry of the stream. -/
  listed : ∃ fields, .appended id fields ∈ history
  /-- Every earlier entry is done with. -/
  cleared : Cleared history history id
  /-- It is not acknowledged itself. -/
  unsettled : .acknowledged id.text ∉ history

/-- What may happen next on a partition of a topic. -/
def Allowed (topic : String) (partition : Int) (history : List Event) : Event → Prop
  | .appended id _ => ∀ id' fields, .appended id' fields ∈ history → id'.lt id = true
  | .dispatched d =>
    HandsFree history ∧ ∃ id fields, .appended id fields ∈ history ∧
      d = .ofFields topic partition id.text fields ∧ IsDue history id
  | .acknowledged entry =>
    ∃ id : EntryId, entry = id.text ∧ IsDue history id ∧
      ((∃ d, lastTurn? history = some (.dispatched d) ∧ d.offset = entry) ∨
        (HandsFree history ∧ .removed entry ∈ history))
  | _ => True

/-- A history in which only happened what was allowed. -/
def Orderly (topic : String) (partition : Int) : List Event → Prop
  | [] => True
  | e :: earlier => Allowed topic partition earlier e ∧ Orderly topic partition earlier

/-- Entries have their turns in the order of the stream. -/
structure InTurn (topic : String) (partition : Int) (history : List Event) : Prop where
  /-- What is dispatched is an entry of the stream with its fields, and by then every earlier entry
  was acknowledged, unless it was removed. -/
  dispatched : ∀ later d earlier, history = later ++ .dispatched d :: earlier →
    ∃ id fields, .appended id fields ∈ earlier ∧ d = .ofFields topic partition id.text fields ∧
      Cleared history earlier id
  /-- No entry is acknowledged twice. -/
  once : ∀ entry, history.count (.acknowledged entry) ≤ 1
  /-- None is skipped: what is acknowledged is an entry of the stream that was dispatched just
  before, unless it was removed, and by then every earlier entry was acknowledged, unless it was
  removed. -/
  acknowledged : ∀ later entry earlier, history = later ++ .acknowledged entry :: earlier →
    ((∃ d, lastTurn? earlier = some (.dispatched d) ∧ d.offset = entry) ∨
      .removed entry ∈ earlier) ∧
    ∃ id fields, .appended id fields ∈ earlier ∧ entry = id.text ∧ Cleared history earlier id
  /-- An entry is dispatched again only if the worker stopped right after the time before, with the
  entry not acknowledged. -/
  again : ∀ later d between d' earlier,
    history = later ++ .dispatched d :: (between ++ .dispatched d' :: earlier) →
    d'.offset = d.offset →
    firstTurn? between = some .stopped ∧
      .acknowledged d.offset ∉ between ++ .dispatched d' :: earlier

variable {topic : String} {partition : Int} {history later between earlier : List Event}
  {e : Event} {d : Delivery}

/-! ## The last turn -/

/-- The last turn is the latest event if that is one, and an earlier one otherwise. -/
theorem lastTurn?_cons (e : Event) (history : List Event) :
    lastTurn? (e :: history) = if e.isTurn then some e else lastTurn? history := by
  unfold lastTurn?
  rw [List.find?_cons]
  cases e.isTurn <;> rfl

/-- The first turn is an earlier one if there is any. -/
theorem firstTurn?_cons (e : Event) (history : List Event) :
    firstTurn? (e :: history) = (firstTurn? history).or (if e.isTurn then some e else none) := by
  unfold firstTurn? lastTurn?
  rw [List.reverse_cons, List.find?_append, List.find?_singleton]

/-- After an acknowledgement no entry has its turn. -/
theorem handsFree_acknowledged (entry : String) : HandsFree (.acknowledged entry :: history) := by
  intro d hlast
  cases hlast

/-- After a stop no entry has its turn. -/
theorem handsFree_stopped : HandsFree (.stopped :: history) := by
  intro d hlast
  cases hlast

/-! ## Histories in which only happened what was allowed -/

/-- In an orderly history each event was allowed when it happened. -/
theorem Orderly.allowed (h : Orderly topic partition (later ++ e :: earlier)) :
    Allowed topic partition earlier e ∧ Orderly topic partition earlier := by
  induction later with
  | nil => exact h
  | cons _ later ih => exact ih h.2

/-- An entry whose turn has come stays cleared: what is appended later comes later in the stream. -/
theorem Orderly.cleared (h : Orderly topic partition (later ++ e :: earlier)) {id : EntryId}
    (hdue : IsDue earlier id) (he : ∀ id fields, e ≠ .appended id fields) :
    Cleared (later ++ e :: earlier) earlier id := by
  obtain ⟨fields, hlisted⟩ := hdue.listed
  intro id' fields' hid' hlt
  rcases List.mem_append.mp hid' with hlater | hearlier
  · obtain ⟨after, before, rfl⟩ := List.append_of_mem hlater
    rw [List.append_assoc, List.cons_append] at h
    have hgrown : id.lt id' = true :=
      h.allowed.1 id fields (List.mem_append_right _ (List.mem_cons_of_mem _ hlisted))
    exact absurd hlt (EntryId.not_lt_of_le (EntryId.le_of_lt hgrown))
  · exact hdue.cleared id' fields' (List.mem_of_ne_of_mem (he id' fields').symm hearlier) hlt

/-- What the worker does first after a dispatch: it acknowledges the entry, or it stops. -/
theorem Orderly.after_dispatch
    (h : Orderly topic partition (between ++ .dispatched d :: earlier)) :
    (firstTurn? between = none ∧
      lastTurn? (between ++ .dispatched d :: earlier) = some (.dispatched d)) ∨
    firstTurn? between = some (.acknowledged d.offset) ∨ firstTurn? between = some .stopped := by
  induction between with
  | nil => exact .inl ⟨rfl, rfl⟩
  | cons e between ih =>
    obtain ⟨hallowed, horderly⟩ := h
    rw [firstTurn?_cons, List.cons_append, lastTurn?_cons]
    rcases ih horderly with ⟨hnone, hlast⟩ | hacknowledged | hstopped
    · rw [hnone]
      cases e with
      | appended id fields => exact .inl ⟨rfl, hlast⟩
      | removed entry => exact .inl ⟨rfl, hlast⟩
      | dispatched d' => exact absurd hlast (hallowed.1 d)
      | acknowledged entry =>
        obtain ⟨id, -, -, ⟨d', hlast', hoffset⟩ | ⟨hfree, -⟩⟩ := hallowed
        · cases hlast.symm.trans hlast'
          exact .inr (.inl (by rw [hoffset]; rfl))
        · exact absurd hlast (hfree d)
      | stopped => exact .inr (.inr rfl)
    · exact .inr (.inl (by rw [hacknowledged]; rfl))
    · exact .inr (.inr (by rw [hstopped]; rfl))

/-- The first turn has happened. -/
theorem mem_of_firstTurn? (h : firstTurn? history = some e) : e ∈ history :=
  List.mem_reverse.mp (List.mem_of_find?_eq_some h)

/-- In an orderly history no entry is acknowledged twice. -/
theorem Orderly.count_acknowledged (h : Orderly topic partition history) (entry : String) :
    history.count (.acknowledged entry) ≤ 1 := by
  induction history with
  | nil => exact Nat.zero_le 1
  | cons e earlier ih =>
    obtain ⟨hallowed, horderly⟩ := h
    by_cases he : e = .acknowledged entry
    · subst he
      obtain ⟨id, rfl, hdue, -⟩ := hallowed
      exact Nat.le_of_eq (by rw [List.count_cons_self, List.count_eq_zero.mpr hdue.unsettled])
    · rw [List.count_cons_of_ne he]
      exact ih horderly

/-- In an orderly history entries have their turns in the order of the stream. -/
theorem inTurn_of_orderly (h : Orderly topic partition history) :
    InTurn topic partition history where
  dispatched := by
    rintro later d earlier rfl
    obtain ⟨-, id, fields, hlisted, hd, hdue⟩ := h.allowed.1
    exact ⟨id, fields, hlisted, hd, h.cleared hdue fun _ _ he => by cases he⟩
  once := h.count_acknowledged
  acknowledged := by
    rintro later entry earlier rfl
    obtain ⟨id, rfl, hdue, hturn⟩ := h.allowed.1
    obtain ⟨fields, hlisted⟩ := hdue.listed
    have hcleared := h.cleared hdue fun _ _ he => by cases he
    exact ⟨hturn.imp_right And.right, id, fields, hlisted, rfl, hcleared⟩
  again := by
    rintro later d between d' earlier rfl hoffset
    obtain ⟨⟨hfree, id, fields, -, rfl, hdue⟩, horderly⟩ := h.allowed
    refine ⟨?_, hdue.unsettled⟩
    rcases horderly.after_dispatch with ⟨-, hlast⟩ | hacknowledged | hstopped
    · exact absurd hlast (hfree d')
    · rw [hoffset] at hacknowledged
      exact absurd (List.mem_append_left _ (mem_of_firstTurn? hacknowledged)) hdue.unsettled
    · exact hstopped

end Shifts

end EventRelay
