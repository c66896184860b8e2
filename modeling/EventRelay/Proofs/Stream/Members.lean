import EventRelay.Proofs.Stream.Entries

/-!
# Members of a group

The operations by which a member of a group works on the streams of a broker, and what they leave as
it is.  A reader is told the truth about the entries it gets, and no operation loses one.

* `Regroups`: an operation that changes only what groups know of one stream.
* `readNew_spec`, `readOwn_spec`, `takeOver_spec`, `acknowledge_spec`: what a member does.
* `evolves_append`, `evolves_erase`, `createGroup_spec`: what others do.
-/

namespace EventRelay.Streams

variable {ss ss' : Streams} {name group consumer : String} {settled : String → Fields → Prop}

/-- The stream of that name, or the empty one. -/
def named (ss : Streams) (name : String) : Stream := (ss.get? name).getD (.empty name)

/-- The stream of a name has it. -/
@[simp] theorem name_named (ss : Streams) (name : String) : (ss.named name).name = name :=
  name_getD_get? ss name

/-- A stream that is put is there. -/
theorem named_put_self (ss : Streams) (s : Stream) : (ss.put s).named s.name = s := by
  unfold named
  rw [get?_put_self]
  rfl

/-- A stream that is put leaves all others. -/
theorem named_put_of_ne (ss : Streams) (s : Stream) (h : s.name ≠ name) :
    (ss.put s).named name = ss.named name := by
  unfold named
  rw [get?_put_of_ne ss s h]

/-- The entries of a name are those of the stream. -/
theorem entriesOf_eq (ss : Streams) (name : String) :
    ss.entriesOf name = (ss.named name).entries := by
  unfold entriesOf named
  cases ss.get? name <;> rfl

/-- The stream and the group of an operation are those of the names. -/
theorem named_of_member {s : Stream} {g : Group} (h : ss.member name group = .ok (s, g)) :
    s = ss.named name ∧ (ss.named name).group? group = some g := by
  unfold member at h
  unfold named
  rcases hget : ss.get? name with _ | s'
  · simp [hget] at h
  · rcases hgroup : s'.group? group with _ | g'
    · simp [hget, hgroup] at h
    · simp only [hget, hgroup, Except.ok.injEq, Prod.mk.injEq] at h
      obtain ⟨rfl, rfl⟩ := h
      exact ⟨rfl, hgroup⟩

/-! ## Changing what groups know -/

/-- Only what groups know of one stream is changed. -/
structure Regroups (name : String) (ss ss' : Streams) : Prop where
  /-- Other streams are as they were. -/
  others : ∀ other, name ≠ other → ss'.named other = ss.named other
  /-- Its entries are as they were. -/
  entries : (ss'.named name).entries = (ss.named name).entries
  /-- So is the last identifier. -/
  lastId : (ss'.named name).lastId = (ss.named name).lastId

/-- Streams that are left alone are changed in no group. -/
theorem regroups_refl (name : String) (ss : Streams) : Regroups name ss ss :=
  ⟨fun _ _ => rfl, rfl, rfl⟩

/-- A stream with the same entries is changed in its groups only. -/
theorem regroups_put {s : Stream} (hname : s.name = name)
    (hentries : s.entries = (ss.named name).entries) (hlast : s.lastId = (ss.named name).lastId) :
    Regroups name ss (ss.put s) := by
  subst hname
  refine ⟨fun other h => named_put_of_ne ss s h, ?_, ?_⟩
  · rw [named_put_self, hentries]
  · rw [named_put_self, hlast]

/-- Where only groups change every stream has evolved. -/
theorem Regroups.evolves {keep : Prop} (h : Regroups name ss ss') (other : String) :
    (ss.named other).Evolves keep (ss'.named other) := by
  by_cases hname : name = other
  · subst hname
    exact Stream.evolves_of_same h.entries h.lastId
  · rw [h.others other hname]
    exact Stream.evolves_of_same rfl rfl

/-- A changed group is on its stream. -/
theorem named_put_putGroup (ss : Streams) (name : String) (g : Group) :
    (ss.put ((ss.named name).putGroup g)).named name = (ss.named name).putGroup g := by
  have h := named_put_self ss ((ss.named name).putGroup g)
  rwa [show ((ss.named name).putGroup g).name = name from name_named ss name] at h

/-- A changed group is a change of groups. -/
theorem regroups_putGroup (ss : Streams) (name : String) (g : Group) :
    Regroups name ss (ss.put ((ss.named name).putGroup g)) :=
  regroups_put (name_named ss name) rfl rfl

/-! ## What a member does -/

section

variable (hkeeps : (ss.named name).Keeps settled group)

include hkeeps

/-- Reading new entries keeps the stream in order, and tells the truth about them. -/
theorem readNew_spec {count : Nat} {now : Instant} {entries : List Handed}
    (h : ss.readNew name group consumer count now = .ok (entries, ss')) :
    Regroups name ss ss' ∧ (ss'.named name).Keeps settled group ∧
      ∀ x ∈ entries, (ss.named name).Vouches x := by
  unfold readNew at h
  rcases hmember : ss.member name group with e | ⟨s, g⟩
  · simp [hmember] at h
  obtain ⟨rfl, hg⟩ := named_of_member hmember
  simp only [hmember, Except.ok.injEq, Prod.mk.injEq] at h
  obtain ⟨rfl, rfl⟩ := h
  refine ⟨regroups_putGroup ss name _, ?_, ?_⟩
  · rw [named_put_putGroup]
    split
    · exact hkeeps.putGroup hg rfl (hkeeps.last g hg) (hkeeps.pending g hg) (hkeeps.stands g hg)
    · exact hkeeps.hand hg consumer now count ‹_›
  · intro x hx
    obtain ⟨e, he, rfl⟩ := List.mem_map.mp hx
    have hmem : e ∈ (ss.named name).entries :=
      (List.mem_filter.mp (List.mem_of_mem_take he)).1
    have hvouches := hkeeps.vouches (hkeeps.below e hmem)
    rwa [hkeeps.fieldsOf? hmem] at hvouches

/-- Reading one's own entries tells the truth about them. -/
theorem readOwn_spec {count : Nat} {entries : List Handed}
    (h : ss.readOwn name group consumer count = .ok entries) :
    ∀ x ∈ entries, (ss.named name).Vouches x := by
  unfold readOwn at h
  rcases hmember : ss.member name group with e | ⟨s, g⟩
  · simp [hmember] at h
  obtain ⟨rfl, hg⟩ := named_of_member hmember
  simp only [hmember, Except.ok.injEq] at h
  subst h
  intro x hx
  obtain ⟨p, hp, rfl⟩ := List.mem_map.mp hx
  have hpending : p ∈ g.pending := (List.mem_filter.mp (List.mem_of_mem_take hp)).1
  exact hkeeps.vouches (hkeeps.pending g hg p hpending)

/-- A take-over keeps the stream in order, and tells the truth about what it hands over. -/
theorem takeOver_spec {least : Int} {count : Nat} {now : Instant}
    {entries : List (String × Fields)}
    (h : ss.takeOver name group consumer least count now = .ok (entries, ss')) :
    Regroups name ss ss' ∧ (ss'.named name).Keeps settled group ∧
      ∀ x ∈ entries, (ss.named name).Vouches (x.1, some x.2) := by
  unfold takeOver at h
  rcases hmember : ss.member name group with e | ⟨s, g⟩
  · simp [hmember] at h
  obtain ⟨rfl, hg⟩ := named_of_member hmember
  simp only [hmember, Except.ok.injEq, Prod.mk.injEq] at h
  obtain ⟨rfl, rfl⟩ := h
  obtain ⟨hfound, hremoved⟩ := @Stream.mem_sift (ss.named name) count (g.idleFor now least)
  refine ⟨regroups_putGroup ss name _, ?_, ?_⟩
  · rw [named_put_putGroup]
    refine hkeeps.handOver hg hremoved _ fun p => ?_
    split <;> rfl
  · intro x hx
    obtain ⟨y, hy, rfl⟩ := List.mem_map.mp hx
    obtain ⟨hfields, p, hp, hid⟩ := hfound y hy
    have hpending : p ∈ g.pending := (List.mem_filter.mp hp).1
    have hvouches := hkeeps.vouches (hkeeps.pending g hg p hpending)
    rwa [hid, hfields] at hvouches

/-- An acknowledgement keeps the stream in order, if what it settles may count as settled. -/
theorem acknowledge_spec {settled' : String → Fields → Prop} (id : String)
    (hmono : ∀ id fields, settled id fields → settled' id fields)
    (hsettled : ∀ e ∈ (ss.named name).entries, e.id.text = id → settled' id e.fields) :
    Regroups name ss (ss.acknowledge name group id) ∧
      ((ss.acknowledge name group id).named name).Keeps settled' group := by
  unfold acknowledge
  rcases hmember : ss.member name group with e | ⟨s, g⟩
  · exact ⟨regroups_refl name ss, hkeeps.mono hmono⟩
  · obtain ⟨rfl, hg⟩ := named_of_member hmember
    refine ⟨regroups_putGroup ss name _, ?_⟩
    dsimp only
    rw [named_put_putGroup]
    exact hkeeps.acknowledge hg id hmono hsettled

end

/-! ## What others do -/

section append

variable (ss : Streams) (name other : String) (now : Instant) (fields : Fields)
  (maxlen : Option Int) (approximate : Bool)

/-- An entry is appended to the stream of the name. -/
theorem named_append_self : (ss.append name now fields maxlen approximate).2.named name =
    ((ss.named name).append now fields maxlen approximate).2 := by
  have h := named_put_self ss ((ss.named name).append now fields maxlen approximate).2
  rwa [show ((ss.named name).append now fields maxlen approximate).2.name = name from
    name_named ss name] at h

/-- An appended entry is the last one of its stream. -/
theorem entriesOf_append : (ss.append name now fields maxlen approximate).2.entriesOf name =
    ss.entriesOf name ++
      [⟨(ss.append name now fields maxlen approximate).1, fields, maxlen, approximate⟩] := by
  rw [entriesOf_eq, entriesOf_eq, named_append_self]
  rfl

/-- It is appended to no other stream. -/
theorem named_append_of_ne (h : name ≠ other) :
    (ss.append name now fields maxlen approximate).2.named other = ss.named other := by
  refine named_put_of_ne ss _ fun hname => h (Eq.trans ?_ hname)
  exact (name_named ss name).symm

/-- Every stream evolves by it. -/
theorem evolves_append {keep : Prop} :
    (ss.named other).Evolves keep
      ((ss.append name now fields maxlen approximate).2.named other) := by
  by_cases h : name = other
  · subst h
    rw [named_append_self]
    exact Stream.evolves_append _ _ _ _ _
  · rw [named_append_of_ne _ _ _ _ _ _ _ h]
    exact Stream.evolves_of_same rfl rfl

/-- Every stream stays in order by it. -/
theorem keeps_append (h : (ss.named other).Keeps settled group) :
    ((ss.append name now fields maxlen approximate).2.named other).Keeps settled group := by
  by_cases hname : name = other
  · subst hname
    rw [named_append_self]
    exact h.append _ _ _ _
  · rwa [named_append_of_ne _ _ _ _ _ _ _ hname]

end append

/-- An entry is removed from the stream of the name. -/
theorem named_erase_self (ss : Streams) (name id : String) :
    (ss.erase name id).named name = (ss.named name).erase id := by
  unfold erase
  rcases hget : ss.get? name with _ | s
  · simp [named, hget, Stream.empty, Stream.erase]
  · have hname : s.name = name := name_of_get? hget
    have h := named_put_self ss (s.erase id)
    rw [show (s.erase id).name = name from hname] at h
    simpa [named, hget] using h

/-- It is removed from no other stream. -/
theorem named_erase_of_ne (ss : Streams) (id : String) {other : String} (h : name ≠ other) :
    (ss.erase name id).named other = ss.named other := by
  unfold erase
  rcases hget : ss.get? name with _ | s
  · rfl
  · exact named_put_of_ne ss _ fun hname => h ((name_of_get? hget).symm.trans hname)

/-- Every stream evolves by a removal, but one that is to keep its entries. -/
theorem evolves_erase (ss : Streams) (name id other : String) {keep : Prop}
    (hkeep : name = other → ¬ keep) :
    (ss.named other).Evolves keep ((ss.erase name id).named other) := by
  by_cases h : name = other
  · subst h
    rw [named_erase_self]
    exact Stream.evolves_erase _ _ (hkeep rfl)
  · rw [named_erase_of_ne ss id h]
    exact Stream.evolves_of_same rfl rfl

/-- Every stream stays in order by a removal. -/
theorem keeps_erase {other : String} (h : (ss.named other).Keeps settled group) (name id : String) :
    ((ss.erase name id).named other).Keeps settled group := by
  by_cases hname : name = other
  · subst hname
    rw [named_erase_self]
    exact h.erase id
  · rwa [named_erase_of_ne ss id hname]

/-- The streams with other groups on one of them. -/
def withGroups (ss : Streams) (name : String) (groups : List Group) : Streams :=
  ss.put { ss.named name with groups }

/-- Other groups on a stream are a change of groups. -/
theorem regroups_withGroups (ss : Streams) (name : String) (groups : List Group) :
    Regroups name ss (ss.withGroups name groups) :=
  regroups_put (name_named ss name) rfl rfl

/-- They are on the stream of the name. -/
theorem named_withGroups (ss : Streams) (name : String) (groups : List Group) :
    (ss.withGroups name groups).named name = { ss.named name with groups } := by
  have hput := named_put_self ss { ss.named name with groups }
  rwa [show ({ ss.named name with groups } : Stream).name = name from name_named ss name] at hput

/-- Whoever creates a group, every entry is still to be handed to it. -/
theorem createGroup_spec {newcomer : String} (h : ss.createGroup name newcomer = .ok ss') :
    Regroups name ss ss' ∧ ∀ settled group,
      (ss.named name).Keeps settled group → (ss'.named name).Keeps settled group := by
  unfold Streams.createGroup at h
  dsimp only at h
  rcases hnone : ((ss.get? name).getD (.empty name)).group? newcomer with _ | g
  · simp only [hnone, Except.ok.injEq] at h
    subst h
    refine ⟨regroups_withGroups ss name _, fun settled group hkeeps => ?_⟩
    change ((ss.withGroups name ((ss.named name).groups ++ [⟨newcomer, .zero, []⟩])).named
      name).Keeps settled group
    rw [named_withGroups]
    exact hkeeps.newGroup hnone
  · simp [hnone] at h

end EventRelay.Streams
