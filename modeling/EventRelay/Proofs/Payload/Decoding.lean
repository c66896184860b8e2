import EventRelay.Payload.Writer
import EventRelay.Proofs.Event.Wire
import Mathlib.Data.List.Forall2
import Mathlib.Data.List.Nodup

/-!
# Payloads are read back

An event goes out in one of two forms: as an envelope, compact and in all of Unicode, or as a
dictionary of the same members, spaced and in ASCII, with its timestamp written in full.  Both are
read as the event, so a consumer cannot tell which of them a producer has sent.

A dictionary has its members in any order, and a member that is nothing may be left out.

* `shows_text`, `shows_int`, `shows_moment`, `shows_optional`: what the values of a dictionary are
  written as, and that it is read back.
* `documentMembers_record`: a dictionary is written as a document with its members.
* `decoding_undoes_encoding`: the main statement.
-/

namespace EventRelay

open Json

/-! ## Values -/

/-- An optional string as a value. -/
def Value.optional : Option String → Value
  | none => .null
  | some s => .text s

/-- A dictionary whose members are named by strings. -/
def Value.record (members : List (String × Value)) : Value :=
  .dict (members.map fun (name, v) => (.text name, v))

/-- What a document holds in the place of a value of an event. -/
def Value.shown : Value → Json
  | text s => .text s
  | int n => .int n
  | moment t => .text t.isoText
  | _ => .null

/-- A value is written, and what is written is read as what it shows. -/
def Value.Shows (v : Value) : Prop :=
  ∀ depth, ∃ s, v.write .spaced depth = .ok s ∧ Denotes .strict 0 s.toList v.shown

/-- A text is read back as it is. -/
theorem shows_text (s : String) : (Value.text s).Shows := fun _ =>
  ⟨_, by rw [Value.write], denotes_text Layout.readable_spaced s⟩

/-- A timestamp is read back as its text. -/
theorem shows_moment (t : Timestamp) : (Value.moment t).Shows := fun _ =>
  ⟨_, by rw [Value.write], denotes_text Layout.readable_spaced t.isoText⟩

/-- Nothing is read back as nothing. -/
theorem shows_null : Value.null.Shows := fun _ => ⟨_, by rw [Value.write], denotes_null⟩

/-- A text that may be missing is read back. -/
theorem shows_optional (s : Option String) : (Value.optional s).Shows := by
  cases s with
  | none => exact shows_null
  | some s => exact shows_text s

/-- It shows as the text or as nothing. -/
theorem shown_optional (s : Option String) : (Value.optional s).shown = optionalValue s := by
  cases s <;> rfl

/-- An integer of 64 bits is read back. -/
theorem shows_int {n : Int} (h : Scalar.fitsWord n = true) : (Value.int n).Shows := by
  have hconverts := converts_of_fitsWord h
  intro depth
  have hshort : ¬ digitsLimit < (toString n.natAbs).length := by
    have hlength : ¬ 4300 < (Nat.toDigits 10 n.natAbs).length + _ :=
      of_decide_eq_false (hconverts true)
    have htext : (toString n.natAbs).length = (Nat.toDigits 10 n.natAbs).length := by
      simp [toString, Nat.repr]
    unfold digitsLimit
    omega
  refine ⟨toString n, ?_, denotes_int hconverts⟩
  rw [Value.write]
  unfold Value.integerText
  exact if_neg hshort

/-! ## Dictionaries -/

/-- The members of a dictionary are written one after another. -/
theorem writeMembers_record (depth : Nat) {members : List (String × Value)}
    (h : ∀ m ∈ members, m.2.Shows) :
    ∃ written,
      Value.writeMembers .spaced depth (members.map fun (name, v) => (.text name, v)) =
        .ok written ∧
      List.Forall₂ (fun w m => w.1 = m.1 ∧ Denotes .strict 0 w.2.toList m.2) written
        (members.map fun m => (m.1, m.2.shown)) := by
  induction members with
  | nil => exact ⟨[], by rw [List.map_nil, Value.writeMembers], .nil⟩
  | cons m members ih =>
    obtain ⟨written, hwritten, hdenotes⟩ := ih fun m' hm' => h m' (List.mem_cons_of_mem _ hm')
    obtain ⟨s, hs, hshown⟩ := h m List.mem_cons_self depth
    refine ⟨(m.1, s) :: written, ?_, .cons ⟨rfl, hshown⟩ hdenotes⟩
    rw [List.map_cons, Value.writeMembers]
    simp only [Value.nameText, hs, hwritten]
    rfl

/-- A dictionary is written as a document with its members. -/
theorem documentMembers_record {members : List (String × Value)} (h : ∀ m ∈ members, m.2.Shows)
    (hne : members ≠ []) :
    ∃ raw, (Payload.value (.record members)).wire = .ok raw ∧
      documentMembers raw = .ok (members.map fun m => (m.1, m.2.shown)) := by
  obtain ⟨written, hwritten, hdenotes⟩ := writeMembers_record 979 h
  have hsome : written ≠ [] := by
    have hlength := hdenotes.length_eq
    rw [List.length_map] at hlength
    rintro rfl
    exact hne (List.length_eq_zero_iff.mp hlength.symm)
  have hwrite : Value.write .spaced (979 + 1) (.record members) =
      .ok (Layout.spaced.object written) := by
    unfold Value.record
    rw [Value.write, hwritten]
    rfl
  exact ⟨_, hwrite, documentMembers_object Layout.readable_spaced hdenotes hsome⟩

/-- A dictionary gives these members: in any order, and those that are nothing may be left out. -/
structure Gives (given members : List (String × Value)) : Prop where
  /-- No name occurs twice. -/
  nodup : (given.map (·.1)).Nodup
  /-- There is no other member. -/
  only : ∀ m ∈ given, m ∈ members
  /-- Every member is there that is something. -/
  all : ∀ m ∈ members, m ∈ given ∨ m.2 = .null

section lookup

variable {σ τ : Type} {members : List (String × σ)} {name : String} {v : σ}

/-- Where no name occurs twice, a member is found under its name. -/
theorem lookup_of_mem (hnodup : (members.map (·.1)).Nodup) (h : (name, v) ∈ members) :
    Slot.lookup name members = some v := by
  unfold Slot.lookup
  have hfound : (members.reverse.find? (·.1 == name)).isSome = true :=
    List.find?_isSome.mpr ⟨(name, v), List.mem_reverse.mpr h, beq_self_eq_true name⟩
  obtain ⟨m, hm⟩ := Option.isSome_iff_exists.mp hfound
  have hmem : m ∈ members := List.mem_reverse.mp (List.mem_of_find?_eq_some hm)
  have hname : m.1 = name := by simpa using List.find?_some hm
  rw [hm, List.inj_on_of_nodup_map hnodup hmem h hname]
  rfl

/-- No member is found under a name that none has. -/
theorem lookup_eq_none (h : ∀ m ∈ members, m.1 ≠ name) : Slot.lookup name members = none := by
  unfold Slot.lookup
  rw [List.find?_eq_none.mpr fun m hm => by simpa using h m (List.mem_reverse.mp hm)]
  rfl

/-- A change of all values changes the one that is found. -/
theorem lookup_map (f : σ → τ) :
    Slot.lookup name (members.map fun m => (m.1, f m.2)) = (Slot.lookup name members).map f := by
  unfold Slot.lookup
  rw [← List.map_reverse, List.find?_map, Option.map_map, Option.map_map]
  rfl

end lookup

section gives

variable {given members : List (String × Value)} (h : Gives given members)
  (hnodup : (members.map (·.1)).Nodup) {name : String}

include h

/-- A dictionary that gives something has members. -/
theorem Gives.ne_nil {v : Value} (hmem : (name, v) ∈ members) (hv : v ≠ .null) : given ≠ [] :=
  List.ne_nil_of_mem ((h.all _ hmem).resolve_right hv)

include hnodup

/-- A member is found as what it shows, or it is nothing and left out. -/
theorem Gives.lookup {v : Value} (hmem : (name, v) ∈ members) :
    Slot.lookup name (given.map fun m => (m.1, m.2.shown)) = some v.shown ∨
      Slot.lookup name (given.map fun m => (m.1, m.2.shown)) = none ∧ v = .null := by
  rw [lookup_map]
  by_cases hgiven : (name, v) ∈ given
  · rw [lookup_of_mem h.nodup hgiven]
    exact .inl rfl
  · refine .inr ⟨?_, (h.all _ hmem).resolve_left hgiven⟩
    rw [lookup_eq_none fun m hm hname => hgiven ?_]
    · rfl
    · rwa [← List.inj_on_of_nodup_map hnodup (h.only m hm) hmem hname]

/-- Every value that is not nothing is found in a dictionary that gives it. -/
theorem Gives.lookup_of_ne_null {v : Value} (hmem : (name, v) ∈ members) (hv : v ≠ .null) :
    Slot.lookup name (given.map fun m => (m.1, m.2.shown)) = some v.shown :=
  (h.lookup hnodup hmem).resolve_right fun hnone => hv hnone.2

/-- A dictionary that gives a text that may be missing offers it. -/
theorem Gives.offers {s : Option String} (hmem : (name, Value.optional s) ∈ members) :
    Offers (given.map fun m => (m.1, m.2.shown)) name s := by
  rcases h.lookup hnodup hmem with hgiven | ⟨hnone, hnull⟩
  · rw [shown_optional] at hgiven
    exact .inl hgiven
  · refine .inr ⟨hnone, ?_⟩
    cases s with
    | none => rfl
    | some s => cases hnull

/-- A dictionary that gives a timestamp tells it. -/
theorem Gives.tells {t : Timestamp} (hmem : ("timestamp", Value.moment t) ∈ members)
    (ht : t.IsProper) (hyear : t.date.year ≠ 0) :
    Tells (given.map fun m => (m.1, m.2.shown)) t :=
  ⟨t.isoText, h.lookup_of_ne_null hnodup hmem nofun,
    timestampOfText_of_ofText? (Timestamp.ofText?_isoText ht) hyear⟩

end gives

/-! ## Events -/

/-- The members of a user event as values of a program. -/
def UserEvent.dictionary (e : UserEvent) : List (String × Value) :=
  [("eventType", .text e.eventType), ("timestamp", .moment e.timestamp), ("userId", .int e.userId),
    ("email", .optional e.email)]

/-- The members of a task event as values of a program. -/
def TaskEvent.dictionary (e : TaskEvent) : List (String × Value) :=
  [("eventType", .text e.eventType), ("timestamp", .moment e.timestamp), ("taskId", .int e.taskId),
    ("userId", .int e.userId), ("title", .optional e.title),
    ("description", .optional e.description), ("status", .optional e.status)]

/-- All members of a proper user event are read back. -/
theorem UserEvent.shows_dictionary {e : UserEvent} (h : e.IsProper) :
    ∀ m ∈ e.dictionary, m.2.Shows := by
  unfold dictionary
  simp only [List.forall_mem_cons]
  exact ⟨shows_text _, shows_moment _, shows_int h.userId, shows_optional _, nofun⟩

/-- All members of a proper task event are read back. -/
theorem TaskEvent.shows_dictionary {e : TaskEvent} (h : e.IsProper) :
    ∀ m ∈ e.dictionary, m.2.Shows := by
  unfold dictionary
  simp only [List.forall_mem_cons]
  exact ⟨shows_text _, shows_moment _, shows_int h.taskId, shows_int h.userId, shows_optional _,
    shows_optional _, shows_optional _, nofun⟩

/-- A dictionary with the members of an event gives its fields. -/
theorem UserEvent.isGiven_dictionary {e : UserEvent} (h : e.IsProper)
    {given : List (String × Value)} (hgiven : Gives given e.dictionary) :
    e.IsGiven (given.map fun m => (m.1, m.2.shown)) := by
  have hnodup : (e.dictionary.map (·.1)).Nodup := by
    show ["eventType", "timestamp", "userId", "email"].Nodup
    decide
  exact {
    eventType :=
      hgiven.lookup_of_ne_null hnodup (v := .text e.eventType) (by simp [dictionary]) nofun
    timestamp := hgiven.tells hnodup (by simp [dictionary]) h.timestamp h.year
    userId := hgiven.lookup_of_ne_null hnodup (v := .int e.userId) (by simp [dictionary]) nofun
    email := hgiven.offers hnodup (by simp [dictionary]) }

/-- A dictionary of the members gives the task event. -/
theorem TaskEvent.isGiven_dictionary {e : TaskEvent} (h : e.IsProper)
    {given : List (String × Value)} (hgiven : Gives given e.dictionary) :
    e.IsGiven (given.map fun m => (m.1, m.2.shown)) := by
  have hnodup : (e.dictionary.map (·.1)).Nodup := by
    show ["eventType", "timestamp", "taskId", "userId", "title", "description", "status"].Nodup
    decide
  exact {
    eventType :=
      hgiven.lookup_of_ne_null hnodup (v := .text e.eventType) (by simp [dictionary]) nofun
    timestamp := hgiven.tells hnodup (by simp [dictionary]) h.timestamp h.year
    taskId := hgiven.lookup_of_ne_null hnodup (v := .int e.taskId) (by simp [dictionary]) nofun
    userId := hgiven.lookup_of_ne_null hnodup (v := .int e.userId) (by simp [dictionary]) nofun
    title := hgiven.offers hnodup (by simp [dictionary])
    description := hgiven.offers hnodup (by simp [dictionary])
    status := hgiven.offers hnodup (by simp [dictionary]) }

/-- A payload is written, and what is written is read as this. -/
def ReadsAs {α : Type} (read : String → Checked α) (p : Payload) (a : α) : Prop :=
  ∃ raw, p.wire = .ok raw ∧ read raw = .ok a

/-- A dictionary with the members of an event is read as the event. -/
theorem UserEvent.readsAs_dictionary {e : UserEvent} (h : e.IsProper) (now : Timestamp)
    {given : List (String × Value)} (hgiven : Gives given e.dictionary) :
    ReadsAs (UserEvent.ofWire now) (.value (.record given)) e := by
  have hmem : ("eventType", .text e.eventType) ∈ e.dictionary := List.mem_cons_self
  obtain ⟨raw, hraw, hmembers⟩ := documentMembers_record
    (fun m hm => shows_dictionary h m (hgiven.only m hm)) (hgiven.ne_nil hmem nofun)
  refine ⟨raw, hraw, ?_⟩
  unfold UserEvent.ofWire
  rw [hmembers]
  exact (isGiven_dictionary h hgiven).read now

/-- So it is written and read as the task event. -/
theorem TaskEvent.readsAs_dictionary {e : TaskEvent} (h : e.IsProper) (now : Timestamp)
    {given : List (String × Value)} (hgiven : Gives given e.dictionary) :
    ReadsAs (TaskEvent.ofWire now) (.value (.record given)) e := by
  have hmem : ("eventType", .text e.eventType) ∈ e.dictionary := List.mem_cons_self
  obtain ⟨raw, hraw, hmembers⟩ := documentMembers_record
    (fun m hm => shows_dictionary h m (hgiven.only m hm)) (hgiven.ne_nil hmem nofun)
  refine ⟨raw, hraw, ?_⟩
  unfold TaskEvent.ofWire
  rw [hmembers]
  exact (isGiven_dictionary h hgiven).read now

/-- Decoding undoes both encoders: an event whose timestamp is one of the years 1 to 9999, local or
with an offset of whole minutes, and whose identifiers fit into 64 bits, is read from its envelope
and from a dictionary of its members, whatever its texts are and whenever it is read. -/
theorem decoding_undoes_encoding (now : Timestamp) :
    (∀ e : UserEvent, e.IsProper →
      ReadsAs (UserEvent.ofWire now) (.user e) e ∧
      ∀ given, Gives given e.dictionary →
        ReadsAs (UserEvent.ofWire now) (.value (.record given)) e) ∧
    (∀ e : TaskEvent, e.IsProper →
      ReadsAs (TaskEvent.ofWire now) (.task e) e ∧
      ∀ given, Gives given e.dictionary →
        ReadsAs (TaskEvent.ofWire now) (.value (.record given)) e) := by
  constructor
  · intro e he
    exact ⟨⟨e.wire, rfl, UserEvent.ofWire_wire he now⟩,
      fun given hgiven => e.readsAs_dictionary he now hgiven⟩
  · intro e he
    exact ⟨⟨e.wire, rfl, TaskEvent.ofWire_wire he now⟩,
      fun given hgiven => e.readsAs_dictionary he now hgiven⟩

/-! ## Two events in both forms -/

/-- The last microsecond but one of a leap day, half past five hours west of universal time. -/
def leapDay : Timestamp := ⟨⟨2024, 2, 29⟩, 23, 59, 59, 999998, some (-19800000000)⟩

/-- The deletion of a user, at a local time and without an address. -/
def leapDeletion : UserEvent := ⟨"user.deleted", { leapDay with offset := none }, 7, none⟩

/-- An event with texts that have to be escaped, as a pair in ASCII, and without a description. -/
def leapChange : TaskEvent :=
  ⟨"UPDATED", leapDay, -1, Scalar.greatestWord, some "\"\t😀\x7f", none, some "done"⟩

/-- They are read back from their envelopes, and from dictionaries with the members in another order
or without the one that is nothing. -/
theorem decoding_undoes_encoding_of_leapDay :
    (leapDeletion.IsProper ∧ ReadsAs (UserEvent.ofWire leapDay) (.user leapDeletion) leapDeletion ∧
      ReadsAs (UserEvent.ofWire leapDay) (.value (.record leapDeletion.dictionary.reverse))
        leapDeletion) ∧
    (leapChange.IsProper ∧ ReadsAs (TaskEvent.ofWire leapDay) (.task leapChange) leapChange ∧
      ReadsAs (TaskEvent.ofWire leapDay) (.value (.record (leapChange.dictionary.eraseIdx 5)))
        leapChange) := by
  obtain ⟨huser, htask⟩ := decoding_undoes_encoding leapDay
  have hdeletion : leapDeletion.IsProper :=
    ⟨⟨by decide, by decide, by decide, by decide, by decide, nofun⟩, by decide, by decide⟩
  have hchange : leapChange.IsProper :=
    ⟨⟨by decide, by decide, by decide, by decide, by decide, by decide⟩, by decide, by decide,
      by decide⟩
  have hreversed : Gives leapDeletion.dictionary.reverse leapDeletion.dictionary := by
    refine ⟨?_, fun m => List.mem_reverse.mp, fun m hm => .inl (List.mem_reverse.mpr hm)⟩
    show ["email", "userId", "timestamp", "eventType"].Nodup
    decide
  have hshortened : Gives (leapChange.dictionary.eraseIdx 5) leapChange.dictionary := by
    refine ⟨?_, fun m => List.mem_of_mem_eraseIdx, ?_⟩
    · show ["eventType", "timestamp", "taskId", "userId", "title", "status"].Nodup
      decide
    · simp [TaskEvent.dictionary, leapChange, Value.optional]
  obtain ⟨henvelope, hdictionary⟩ := huser leapDeletion hdeletion
  obtain ⟨henvelope', hdictionary'⟩ := htask leapChange hchange
  exact ⟨⟨hdeletion, henvelope, hdictionary _ hreversed⟩,
    hchange, henvelope', hdictionary' _ hshortened⟩

end EventRelay
