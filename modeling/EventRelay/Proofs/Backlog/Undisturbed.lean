import EventRelay.Proofs.Backlog.Ends
import Mathlib.Data.List.Nodup

/-!
# A backlog that nobody else touches

What a read shows of an entry may change from one read to the next: somebody may remove it from its
stream meanwhile.  Then an entry whose callback raised is read without fields later, and
acknowledged.  As long as others leave alone what is pending for the consumer, with the fields of
it, this cannot be: a read shows the front of one list, of which the consumer only ever takes
something away itself.

* `listed`: what is pending for the consumer, as a read of all of it would show it.
* `Undisturbed`: a course in which nobody but the consumer changes that list.
* `Undisturbed.alike`: all reads show an entry alike.
* `Undisturbed.not_acknowledged`: an entry whose callback only ever raised is not acknowledged.
-/

namespace EventRelay

namespace Backlog

open Consumer

section

variable (c : ConsumerConfig) (partition : Int)

/-- The entries that are pending for the consumer, with the fields of those that are still in the
stream. -/
def listed (s : Loop) : List Handed :=
  ((s.group c partition).ownedBy c.name).map fun p =>
    (p.id.text, (s.streams.named (c.stream partition)).fieldsOf? p.id)

/-- A course in which what is not the consumer's own doing leaves its list as it is. -/
inductive Undisturbed (s : Loop) : List Note → Loop → Prop where
  /-- Nothing yet. -/
  | start : Undisturbed s [] s
  /-- One thing more.  What the consumer does itself is noted; where nothing is noted, time passed
  or others changed the streams. -/
  | step {notes more : List Note} {s' s'' : Loop} (h : Undisturbed s notes s')
      (hturn : Turn c partition s' more s'')
      (hsame : more = [] → listed c partition s'' = listed c partition s') :
      Undisturbed s (notes ++ more) s''

end

variable {c : ConsumerConfig} {partition : Int} {s s' : Loop} {notes more : List Note}
  {entries : List Handed} {entry : String} {fields fields' : Option Fields}

/-! ## The list of the consumer -/

/-- The entries of the list are those that are pending. -/
theorem listed_map_fst (s : Loop) : (listed c partition s).map (·.1) = owned c partition s := by
  unfold listed owned
  rw [List.map_map]
  rfl

/-- A read shows the front of the list. -/
theorem readOwn_listed
    (h : s.streams.readOwn (c.stream partition) c.group c.name c.batch.toNat = .ok entries) :
    entries = (listed c partition s).take c.batch.toNat := by
  unfold Streams.readOwn at h
  rcases hmember : s.streams.member (c.stream partition) c.group with e | ⟨stream, g⟩
  · simp [hmember] at h
  · obtain ⟨rfl, -, hg⟩ := Streams.groupOf_of_member hmember
    simp only [hmember, Except.ok.injEq] at h
    unfold listed Loop.group
    rw [hg, ← h, List.map_take]

/-- An entry that is acknowledged leaves the list, and nothing else does. -/
theorem listed_acknowledge (move : ConsumerMove) (entry : String) :
    listed c partition
        ⟨s.now, s.streams.acknowledge (c.stream partition) c.group entry, move⟩ =
      (listed c partition s).filter (·.1 ≠ entry) := by
  unfold listed Loop.group
  dsimp only
  rw [Streams.groupOf_acknowledge, Group.ownedBy_acknowledge, List.filter_map]
  simp only [Streams.fieldsOf?_acknowledge]
  rfl

/-- Of its list the consumer only takes something away. -/
theorem Turn.listed_sublist (h : Turn c partition s more s')
    (hsame : more = [] → listed c partition s' = listed c partition s) :
    (listed c partition s').Sublist (listed c partition s) := by
  cases h with
  | pass | read | returned | raised => exact List.Sublist.refl _
  | @acknowledge entry hrequest =>
    exact listed_acknowledge (s := s) _ entry ▸ List.filter_sublist
  | elsewhere => exact hsame rfl ▸ List.Sublist.refl _

/-! ## Runs -/

/-- It is a course. -/
theorem Undisturbed.course (h : Undisturbed c partition s notes s') :
    Course c partition s notes s' := by
  induction h with
  | start => exact .start
  | step _ hturn _ ih => exact ih.step hturn

/-- Nothing is ever on the list that was not on it in the beginning. -/
theorem Undisturbed.listed_sublist (h : Undisturbed c partition s notes s') :
    (listed c partition s').Sublist (listed c partition s) := by
  induction h with
  | start => exact List.Sublist.refl _
  | step _ hturn hsame ih => exact (hturn.listed_sublist hsame).trans ih

/-- What is shown while the consumer and others do one thing more was on the list before. -/
theorem Turn.listed_of_shown (h : Turn c partition s more s') (hshown : Shown more entry fields) :
    (entry, fields) ∈ listed c partition s := by
  obtain ⟨shown, hread, hmem⟩ := hshown
  cases h with
  | pass | elsewhere => exact absurd hread List.not_mem_nil
  | returned | raised | acknowledge => cases List.mem_singleton.mp hread
  | read hrequest h =>
    cases List.mem_singleton.mp hread
    rw [readOwn_listed h] at hmem
    exact List.mem_of_mem_take hmem

/-- Whatever a read shows was on the list in the beginning. -/
theorem Undisturbed.listed_of_shown (h : Undisturbed c partition s notes s')
    (hshown : Shown notes entry fields) : (entry, fields) ∈ listed c partition s := by
  induction h with
  | start =>
    obtain ⟨shown, hread, -⟩ := hshown
    exact absurd hread List.not_mem_nil
  | step hbefore hturn _ ih =>
    obtain ⟨shown, hread, hmem⟩ := hshown
    rcases List.mem_append.mp hread with hearlier | hnow
    · exact ih ⟨shown, hearlier, hmem⟩
    · exact hbefore.listed_sublist.subset (hturn.listed_of_shown ⟨shown, hnow, hmem⟩)

section

variable (h : Undisturbed c partition s notes s') (hordered : InOrder c partition s)

include h hordered

/-- All reads show an entry alike. -/
theorem Undisturbed.alike (hshown : Shown notes entry fields)
    (hshown' : Shown notes entry fields') : fields = fields' := by
  have hnodup : ((listed c partition s).map (·.1)).Nodup := by
    rw [listed_map_fst]
    exact hordered.nodup
  have hsame := List.inj_on_of_nodup_map hnodup (h.listed_of_shown hshown)
    (h.listed_of_shown hshown') rfl
  exact congrArg Prod.snd hsame

variable (hmove : s.move = Consumer.start)

include hmove

/-- An entry is acknowledged because its callback returned, or because it was removed from its
stream before the consumer began. -/
theorem Undisturbed.returned_or_bare (hacknowledged : .acknowledged entry ∈ notes) :
    .returned entry ∈ notes ∨
      ∃ fields, IsBare fields ∧ (entry, fields) ∈ listed c partition s := by
  have hnoted := (h.course.known hordered hmove).noted
  refine (hnoted.acknowledged entry hacknowledged).imp_right fun ⟨fields, hbare, hshown⟩ => ?_
  exact ⟨fields, hbare, h.listed_of_shown hshown⟩

/-- An entry whose callback only ever raised is not acknowledged. -/
theorem Undisturbed.not_acknowledged (hraised : .raised entry ∈ notes)
    (hnot : .returned entry ∉ notes) : .acknowledged entry ∉ notes :=
  (h.course.known hordered hmove).noted.not_acknowledged
    (fun _ _ hshown hshown' => h.alike hordered hshown hshown') hraised hnot

end

end Backlog

end EventRelay
