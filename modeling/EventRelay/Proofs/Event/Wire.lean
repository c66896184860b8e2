import EventRelay.Event.Reader
import EventRelay.Proofs.Json.Documents
import EventRelay.Proofs.Time.Envelope

/-!
# Events are read back

The written form of an event is read as that event: tag, timestamp, identifiers and texts.  The
timestamp has to have a written form and the identifiers have to fit into 64 bits; any text goes.

* `UserEvent.IsGiven`, `TaskEvent.IsGiven`: the members of a document give the fields of an event,
  in whatever order they stand.
* `UserEvent.ofWire_wire`, `TaskEvent.ofWire_wire`: what is read.
* `ChangeKind.ofEventType?_tag`: the tag of a kind is read as that kind.
-/

namespace EventRelay

open Json

/-! ## Tags -/

/-- The tag of a kind is read as the kind. -/
theorem ChangeKind.ofEventType?_tag (kind : ChangeKind) : ofEventType? kind.tag = some kind := by
  cases kind <;> decide

/-! ## Values -/

/-- The value of an optional string. -/
def optionalValue : Option String → Json
  | none => .null
  | some s => .text s

/-- A text that may be missing is read as the text or as nothing. -/
theorem denotes_optionalText {d : Dialect} {l : Layout} (hl : l.Readable d.surrogates)
    (s : Option String) : Denotes d 0 (optionalText l s).toList (optionalValue s) := by
  cases s with
  | none => exact denotes_null
  | some s => exact denotes_text hl s

/-- A text that may be missing passes its check. -/
theorem optional_optionalValue (s : Option String) :
    Reading.json.optional (optionalValue s) = .ok s := by
  cases s <;> rfl

/-- Integers of 64 bits are not too long. -/
theorem converts_of_fitsWord {n : Int} (h : Scalar.fitsWord n = true) :
    Dialect.strict.Converts n := by
  intro isInteger
  have hsize : n.natAbs < 10 ^ 19 := by
    unfold Scalar.fitsWord at h
    simp only [Bool.and_eq_true, decide_eq_true_eq] at h
    have hleast : Scalar.leastWord = -2 ^ 63 := by decide
    have hgreatest : Scalar.greatestWord = 2 ^ 63 - 1 := by decide
    omega
  have hlength := (Nat.length_toDigits_le_iff (b := 10) (n := n.natAbs) (by decide)
    (show 0 < 19 by decide)).mpr hsize
  refine decide_eq_false (not_lt.mpr ?_)
  change _ ≤ 4300
  split <;> omega

/-- A timestamp is read from its text. -/
theorem timestamp_text (s : String) :
    Reading.json.timestamp (.text s) = Reading.timestampOfText s := rfl

/-- A timestamp that can be counted is read as it is, from whatever text it is the timestamp of. -/
theorem timestampOfText_of_ofText? {s : String} {t : Timestamp} (h : Timestamp.ofText? s = some t)
    (hyear : t.date.year ≠ 0) : Reading.timestampOfText s = .ok t := by
  unfold Reading.timestampOfText Reading.countable
  simp only [h, if_neg hyear]

/-- The text of a proper timestamp passes the check. -/
theorem timestampOfText_envelopeText {t : Timestamp} (ht : t.IsProper) (hyear : t.date.year ≠ 0) :
    Reading.timestampOfText t.envelopeText = .ok t :=
  timestampOfText_of_ofText? (Timestamp.ofText?_envelopeText ht) hyear

/-- An object is a document of the members that it is written from. -/
theorem documentMembers_object {l : Layout} (hl : l.Readable Dialect.strict.surrogates)
    {written : List (String × String)} {members : List (String × Json)}
    (h : List.Forall₂ (fun w m => w.1 = m.1 ∧ Denotes .strict 0 w.2.toList m.2) written members)
    (hne : written ≠ []) : documentMembers (l.object written) = .ok members := by
  unfold documentMembers
  rw [read_of_denotes (denotes_object hl h hne) (by decide)]

/-! ## Fields -/

/-- A field whose value is given under its name on the wire is read from it. -/
theorem Slot.read_of_lookup {σ α : Type} (members : List (String × σ)) (wireName name : String)
    (check : σ → Except Fault α) (absent : Option α) (v : σ) {a : α}
    (hlookup : lookup wireName members = some v) (hcheck : check v = .ok a) :
    Slot.read ⟨wireName, name, check, absent⟩ members = .ok a := by
  unfold read given?
  simp only [hlookup, hcheck]

/-- Members of a document give an optional text: it stands there under its name, or it is nothing
and left out. -/
def Offers (members : List (String × Json)) (name : String) (s : Option String) : Prop :=
  Slot.lookup name members = some (optionalValue s) ∨ Slot.lookup name members = none ∧ s = none

/-- A text that is offered is read, and a missing one is nothing. -/
theorem Slot.read_of_offers {members : List (String × Json)} {name : String} {s : Option String}
    (h : Offers members name s) :
    Slot.read ⟨name, name, Reading.json.optional, some none⟩ members = .ok s := by
  rcases h with hgiven | ⟨hnone, rfl⟩
  · exact read_of_lookup members name name _ _ _ hgiven (optional_optionalValue s)
  · unfold read given?
    simp only [hnone, Option.map_none]

/-- Members of a document give a timestamp in one of its written forms. -/
def Tells (members : List (String × Json)) (t : Timestamp) : Prop :=
  ∃ s, Slot.lookup "timestamp" members = some (.text s) ∧ Reading.timestampOfText s = .ok t

/-- Members of a document give the fields of a user event. -/
structure UserEvent.IsGiven (members : List (String × Json)) (e : UserEvent) : Prop where
  eventType : Slot.lookup "eventType" members = some (.text e.eventType)
  timestamp : Tells members e.timestamp
  userId : Slot.lookup "userId" members = some (.int e.userId)
  email : Offers members "email" e.email

/-- Members of a document give the fields of a task event. -/
structure TaskEvent.IsGiven (members : List (String × Json)) (e : TaskEvent) : Prop where
  eventType : Slot.lookup "eventType" members = some (.text e.eventType)
  timestamp : Tells members e.timestamp
  taskId : Slot.lookup "taskId" members = some (.int e.taskId)
  userId : Slot.lookup "userId" members = some (.int e.userId)
  title : Offers members "title" e.title
  description : Offers members "description" e.description
  status : Offers members "status" e.status

/-- The fields that members give are read, whatever else stands there. -/
theorem UserEvent.IsGiven.read {members : List (String × Json)} {e : UserEvent}
    (h : e.IsGiven members) (now : Timestamp) : Reading.json.userEvent now members = .ok e := by
  obtain ⟨s, htimestamp, hread⟩ := h.timestamp
  have heventType := Slot.read_of_lookup members "eventType" "event_type" Reading.json.text none _
    h.eventType rfl
  have htimestamp := Slot.read_of_lookup members "timestamp" "timestamp" Reading.json.timestamp
    (some now) _ htimestamp ((timestamp_text s).trans hread)
  have huserId := Slot.read_of_lookup members "userId" "user_id" Reading.json.integer none _
    h.userId rfl
  have hemail := Slot.read_of_offers h.email
  simp only [Reading.userEvent, heventType, htimestamp, huserId, hemail]
  rfl

/-- Members that give a task event are read as the event. -/
theorem TaskEvent.IsGiven.read {members : List (String × Json)} {e : TaskEvent}
    (h : e.IsGiven members) (now : Timestamp) : Reading.json.taskEvent now members = .ok e := by
  obtain ⟨s, htimestamp, hread⟩ := h.timestamp
  have heventType := Slot.read_of_lookup members "eventType" "event_type" Reading.json.text none _
    h.eventType rfl
  have htimestamp := Slot.read_of_lookup members "timestamp" "timestamp" Reading.json.timestamp
    (some now) _ htimestamp ((timestamp_text s).trans hread)
  have htaskId := Slot.read_of_lookup members "taskId" "task_id" Reading.json.integer none _
    h.taskId rfl
  have huserId := Slot.read_of_lookup members "userId" "user_id" Reading.json.integer none _
    h.userId rfl
  have htitle := Slot.read_of_offers h.title
  have hdescription := Slot.read_of_offers h.description
  have hstatus := Slot.read_of_offers h.status
  simp only [Reading.taskEvent, heventType, htimestamp, htaskId, huserId, htitle, hdescription,
    hstatus]
  rfl

/-! ## Events -/

/-- The event has a written form: its timestamp has, and its identifier fits into 64 bits. -/
structure UserEvent.IsProper (e : UserEvent) : Prop where
  timestamp : e.timestamp.IsProper
  year : e.timestamp.date.year ≠ 0
  userId : Scalar.fitsWord e.userId = true

/-- The event has a written form: its timestamp has, and its identifiers fit into 64 bits. -/
structure TaskEvent.IsProper (e : TaskEvent) : Prop where
  timestamp : e.timestamp.IsProper
  year : e.timestamp.date.year ≠ 0
  taskId : Scalar.fitsWord e.taskId = true
  userId : Scalar.fitsWord e.userId = true

/-- The members of a written user event. -/
def UserEvent.members (e : UserEvent) : List (String × Json) :=
  [("eventType", .text e.eventType), ("timestamp", .text e.timestamp.envelopeText),
    ("userId", .int e.userId), ("email", optionalValue e.email)]

/-- The members of a written task event. -/
def TaskEvent.members (e : TaskEvent) : List (String × Json) :=
  [("eventType", .text e.eventType), ("timestamp", .text e.timestamp.envelopeText),
    ("taskId", .int e.taskId), ("userId", .int e.userId), ("title", optionalValue e.title),
    ("description", optionalValue e.description), ("status", optionalValue e.status)]

/-- The written form of a proper user event is an object of its members. -/
theorem UserEvent.documentMembers_wire {e : UserEvent} (h : e.IsProper) :
    documentMembers e.wire = .ok e.members := by
  have hl : Layout.compact.Readable Dialect.strict.surrogates := Layout.readable_compact
  refine documentMembers_object hl ?_ (List.cons_ne_nil _ _)
  exact .cons ⟨rfl, denotes_text hl _⟩ <| .cons ⟨rfl, denotes_text hl _⟩ <|
    .cons ⟨rfl, denotes_int (converts_of_fitsWord h.userId)⟩ <|
    .cons ⟨rfl, denotes_optionalText hl _⟩ .nil

/-- The written form of a proper task event is an object of its members. -/
theorem TaskEvent.documentMembers_wire {e : TaskEvent} (h : e.IsProper) :
    documentMembers e.wire = .ok e.members := by
  have hl : Layout.compact.Readable Dialect.strict.surrogates := Layout.readable_compact
  refine documentMembers_object hl ?_ (List.cons_ne_nil _ _)
  exact .cons ⟨rfl, denotes_text hl _⟩ <| .cons ⟨rfl, denotes_text hl _⟩ <|
    .cons ⟨rfl, denotes_int (converts_of_fitsWord h.taskId)⟩ <|
    .cons ⟨rfl, denotes_int (converts_of_fitsWord h.userId)⟩ <|
    .cons ⟨rfl, denotes_optionalText hl _⟩ <| .cons ⟨rfl, denotes_optionalText hl _⟩ <|
    .cons ⟨rfl, denotes_optionalText hl _⟩ .nil

/-- The members of a proper user event give it. -/
theorem UserEvent.isGiven_members {e : UserEvent} (h : e.IsProper) : e.IsGiven e.members where
  eventType := by simp [Slot.lookup, members]
  timestamp := ⟨_, by simp [Slot.lookup, members], timestampOfText_envelopeText h.timestamp h.year⟩
  userId := by simp [Slot.lookup, members]
  email := .inl (by simp [Slot.lookup, members])

/-- The members of a proper task event give it. -/
theorem TaskEvent.isGiven_members {e : TaskEvent} (h : e.IsProper) : e.IsGiven e.members where
  eventType := by simp [Slot.lookup, members]
  timestamp := ⟨_, by simp [Slot.lookup, members], timestampOfText_envelopeText h.timestamp h.year⟩
  taskId := by simp [Slot.lookup, members]
  userId := by simp [Slot.lookup, members]
  title := .inl (by simp [Slot.lookup, members])
  description := .inl (by simp [Slot.lookup, members])
  status := .inl (by simp [Slot.lookup, members])

/-- A proper user event that is written is read back. -/
theorem UserEvent.ofWire_wire {e : UserEvent} (h : e.IsProper) (now : Timestamp) :
    UserEvent.ofWire now e.wire = .ok e := by
  unfold UserEvent.ofWire
  rw [UserEvent.documentMembers_wire h]
  exact (UserEvent.isGiven_members h).read now

/-- A proper task event that is written is read back. -/
theorem TaskEvent.ofWire_wire {e : TaskEvent} (h : e.IsProper) (now : Timestamp) :
    TaskEvent.ofWire now e.wire = .ok e := by
  unfold TaskEvent.ofWire
  rw [TaskEvent.documentMembers_wire h]
  exact (TaskEvent.isGiven_members h).read now

end EventRelay
