import EventRelay.Proofs.Stream.Members

/-!
# Pending entries in line

A group with a single member.  What is pending stands in the order of the stream and belongs to that
member; as long as nothing is pending, new entries are handed over in order and nothing can be taken
over, and what is settled from the front leaves the others in their order.

* `Stream.groupOf`: what a group knows, whether it was created already or not.
* `Group.InOrder`: pending entries in the order of the stream; `Group.InLine`: all with one owner.
* `groupOf_readNew`: what is handed over, whoever reads.
* `readOwn_inLine`, `readNew_inLine`, `takeOver_inLine`: what the member gets, and what is pending
  afterwards.
* `groupOf_acknowledge`, `groupOf_createGroup`: what becomes of the group otherwise;
  `ownedBy_acknowledge`: what is left for each consumer.
-/

namespace EventRelay

namespace EntryId

theorem lt_of_lt_of_le {a b c : EntryId} (hab : a.lt b = true) (hbc : b.le c) :
    a.lt c = true := by
  rw [le_iff] at hbc
  rw [lt_iff] at *
  omega

theorem eq_or_lt_or_lt (a b : EntryId) : a = b ∨ a.lt b = true ∨ b.lt a = true := by
  rw [lt_iff, lt_iff, EntryId.mk.injEq]
  omega

end EntryId

namespace Stream

variable {s : Stream} {name : String}

/-- What a group of that name knows; before it is created, that nothing was handed over. -/
def groupOf (s : Stream) (name : String) : Group := (s.group? name).getD ⟨name, .zero, []⟩

/-- A group that is there knows what it knows. -/
theorem groupOf_of_some {g : Group} (h : s.group? name = some g) : s.groupOf name = g := by
  unfold groupOf
  rw [h]
  rfl

/-- Where something is pending there is a group. -/
theorem group?_of_pending {q : Pending} (h : q ∈ (s.groupOf name).pending) :
    s.group? name = some (s.groupOf name) := by
  unfold groupOf at h ⊢
  rcases hg : s.group? name with _ | g
  · rw [hg] at h
    exact absurd h List.not_mem_nil
  · rfl

/-- What the group does not know of a stream does not matter to it. -/
theorem Keeps.same {s' : Stream} {settled : String → Fields → Prop} (h : s.Keeps settled name)
    (hentries : s'.entries = s.entries) (hlast : s'.lastId = s.lastId)
    (hgroup : s'.group? name = s.group? name) : s'.Keeps settled name where
  ordered := hentries ▸ h.ordered
  above := hentries ▸ h.above
  below := hentries ▸ hlast ▸ h.below
  last g hg := hlast ▸ h.last g (hgroup ▸ hg)
  pending g hg := hlast ▸ h.pending g (hgroup ▸ hg)
  stands g hg := hentries ▸ h.stands g (hgroup ▸ hg)

/-- A group that was changed knows what it was told. -/
theorem groupOf_putGroup {g g' : Group} (hg : s.group? name = some g) (hname : g'.name = g.name) :
    (s.putGroup g').groupOf name = g' :=
  groupOf_of_some (group?_putGroup hg hname)

end Stream

namespace Group

variable {g : Group} {owner consumer : String} {now : Instant} {ids : List EntryId}

/-- Pending entries in the order of the stream. -/
structure InOrder (g : Group) : Prop where
  /-- They are in order. -/
  ordered : g.pending.Pairwise fun a b => a.id.lt b.id = true
  /-- None comes after the last entry handed over. -/
  within : ∀ q ∈ g.pending, q.id.le g.last

/-- Pending entries in the order of the stream, all with one owner. -/
structure InLine (g : Group) (owner : String) : Prop where
  /-- They are in order. -/
  ordered : g.pending.Pairwise fun a b => a.id.lt b.id = true
  /-- None comes after the last entry handed over. -/
  within : ∀ q ∈ g.pending, q.id.le g.last
  /-- They have one owner. -/
  owned : ∀ q ∈ g.pending, q.owner = owner

/-- What stands in line is in order. -/
theorem InLine.inOrder (h : g.InLine owner) : g.InOrder := ⟨h.ordered, h.within⟩

/-- All that stands in line is the owner's. -/
theorem InLine.ownedBy (h : g.InLine owner) : g.ownedBy owner = g.pending :=
  List.filter_eq_self.mpr fun q hq => decide_eq_true (h.owned q hq)

/-- What comes after all that is pending is filed last. -/
theorem file_of_last {p : Pending} {ps : List Pending} (h : ∀ q ∈ ps, q.id.lt p.id = true) :
    file p ps = ps ++ [p] := by
  induction ps with
  | nil => rfl
  | cons q rest ih =>
    have hnot : p.id.lt q.id ≠ true := EntryId.not_lt_of_le (EntryId.le_of_lt (h q (by simp)))
    unfold file
    rw [if_neg hnot, ih fun q' hq' => h q' (List.mem_cons_of_mem _ hq')]
    rfl

/-- Entries in order that come after all pending ones get in line behind them. -/
theorem pending_hand (hordered : ids.Pairwise fun a b => a.lt b = true)
    (hafter : ∀ q ∈ g.pending, ∀ id ∈ ids, q.id.lt id = true) :
    (g.hand consumer now ids).pending =
      g.pending ++ ids.map fun id => ⟨id, consumer, now.milliseconds, 1⟩ := by
  unfold hand
  dsimp only
  generalize g.pending = ps at hafter ⊢
  induction ids generalizing ps with
  | nil => simp
  | cons id ids ih =>
    obtain ⟨hfirst, hrest⟩ := List.pairwise_cons.mp hordered
    rw [List.foldl_cons, file_of_last fun q hq => hafter q hq id List.mem_cons_self,
      ih hrest _ ?_]
    · simp
    · intro q hq id' hid'
      rcases List.mem_append.mp hq with hq | hq
      · exact hafter q hq id' (List.mem_cons_of_mem _ hid')
      · rw [List.mem_singleton.mp hq]
        exact hfirst id' hid'

/-- None of some identifiers in order comes after the last one. -/
theorem le_getLastD (hordered : ids.Pairwise fun a b => a.lt b = true)
    {id : EntryId} (hid : id ∈ ids) (d : EntryId) : id.le (ids.getLastD d) := by
  obtain ⟨init, final, rfl⟩ :=
    (List.eq_nil_or_concat ids).resolve_left (List.ne_nil_of_mem hid)
  rw [List.concat_eq_append] at hordered hid ⊢
  rw [List.getLastD_concat]
  rcases List.mem_append.mp hid with hid | hid
  · exact EntryId.le_of_lt ((List.pairwise_append.mp hordered).2.2 id hid final (by simp))
  · rw [List.mem_singleton.mp hid]
    exact EntryId.le_refl _

/-- The last entry handed over is never an earlier one than before. -/
theorem last_le_hand (hafter : ∀ id ∈ ids, g.last.lt id = true) :
    g.last.le (g.hand consumer now ids).last := by
  by_cases hids : ids = []
  · rw [hids]
    exact EntryId.le_refl _
  · exact EntryId.le_of_lt (hafter _ (Stream.getLastD_mem hids g.last))

section hand

variable (hordered : ids.Pairwise fun a b => a.lt b = true)
  (hafter : ∀ id ∈ ids, g.last.lt id = true)

include hordered hafter

/-- New entries get in line behind all pending ones. -/
theorem InOrder.pending_hand (h : g.InOrder) :
    (g.hand consumer now ids).pending =
      g.pending ++ ids.map fun id => ⟨id, consumer, now.milliseconds, 1⟩ :=
  Group.pending_hand hordered fun q hq id hid =>
    EntryId.lt_of_le_of_lt (h.within q hq) (hafter id hid)

/-- Pending entries stay in order when new ones are handed over. -/
theorem InOrder.hand (h : g.InOrder) : (g.hand consumer now ids).InOrder := by
  constructor
  case ordered =>
    rw [h.pending_hand hordered hafter]
    refine List.pairwise_append.mpr ⟨h.ordered, List.pairwise_map.mpr hordered, ?_⟩
    intro q hq r hr
    obtain ⟨id, hid, rfl⟩ := List.mem_map.mp hr
    exact EntryId.lt_of_le_of_lt (h.within q hq) (hafter id hid)
  case within =>
    intro q hq
    rw [h.pending_hand hordered hafter] at hq
    rcases List.mem_append.mp hq with hq | hq
    · exact EntryId.le_trans (h.within q hq) (last_le_hand hafter)
    · obtain ⟨id, hid, rfl⟩ := List.mem_map.mp hq
      exact le_getLastD hordered hid g.last

/-- They stay in line when new ones are handed to the owner. -/
theorem InLine.hand (h : g.InLine owner) : (g.hand owner now ids).InLine owner := by
  obtain ⟨hordered', hwithin'⟩ := h.inOrder.hand hordered hafter
  refine ⟨hordered', hwithin', fun q hq => ?_⟩
  rcases Stream.mem_pending_hand.mp hq with hq | ⟨id, -, rfl⟩
  · exact h.owned q hq
  · rfl

end hand

/-- Pending entries that are settled leave the others in order. -/
theorem InOrder.sublist (h : g.InOrder) {g' : Group} (hlast : g'.last = g.last)
    (hpending : (g'.pending.map (·.id)).Sublist (g.pending.map (·.id))) : g'.InOrder where
  ordered := by
    have hids : (g.pending.map (·.id)).Pairwise fun a b => a.lt b = true :=
      List.pairwise_map.mpr h.ordered
    exact List.pairwise_map.mp (hids.sublist hpending)
  within q hq := by
    obtain ⟨r, hr, hid⟩ := List.mem_map.mp (hpending.subset (List.mem_map_of_mem hq))
    rw [hlast, ← hid]
    exact h.within r hr

/-- What is settled from the front of the line leaves the others. -/
theorem InLine.pending_acknowledge (h : g.InLine owner) {q : Pending} {rest : List Pending}
    (hpending : g.pending = q :: rest) : (g.acknowledge q.id.text).pending = rest := by
  have hordered := h.ordered
  rw [hpending] at hordered
  have hkept : ∀ r ∈ rest, decide (r.id.text ≠ q.id.text) = true := by
    intro r hr
    refine decide_eq_true fun htext => ?_
    have hlt := (List.pairwise_cons.mp hordered).1 r hr
    rw [EntryId.text_injective htext, EntryId.lt_irrefl] at hlt
    cases hlt
  unfold acknowledge
  dsimp only
  rw [hpending, List.filter_cons_of_neg (by simp), List.filter_eq_self.mpr hkept]

/-- They stay in line when one of them is settled. -/
theorem InLine.acknowledge (h : g.InLine owner) (id : String) :
    (g.acknowledge id).InLine owner where
  ordered := h.ordered.filter _
  within q hq := h.within q (List.mem_filter.mp hq).1
  owned q hq := h.owned q (List.mem_filter.mp hq).1

/-- What is settled leaves the other entries of each consumer. -/
theorem ownedBy_acknowledge (g : Group) (id consumer : String) :
    (g.acknowledge id).ownedBy consumer = (g.ownedBy consumer).filter (·.id.text ≠ id) := by
  unfold acknowledge ownedBy
  rw [List.filter_filter, List.filter_filter]
  exact List.filter_congr fun q _ => Bool.and_comm _ _

end Group

namespace Streams

variable {ss ss' : Streams} {name group consumer : String} {count : Nat} {now : Instant}

/-- The stream and the group of an operation are those of the names. -/
theorem groupOf_of_member {s : Stream} {g : Group} (h : ss.member name group = .ok (s, g)) :
    s = ss.named name ∧ (ss.named name).group? group = some g ∧
      (ss.named name).groupOf group = g := by
  obtain ⟨hs, hg⟩ := named_of_member h
  exact ⟨hs, hg, Stream.groupOf_of_some hg⟩

/-- The member is shown the front of the line. -/
theorem readOwn_inLine {entries : List Handed}
    (hline : ((ss.named name).groupOf group).InLine consumer)
    (h : ss.readOwn name group consumer count = .ok entries) :
    entries = (((ss.named name).groupOf group).pending.take count).map
      fun q => (q.id.text, (ss.named name).fieldsOf? q.id) := by
  unfold readOwn at h
  rcases hmember : ss.member name group with e | ⟨s, g⟩
  · simp [hmember] at h
  · obtain ⟨rfl, -, hg⟩ := groupOf_of_member hmember
    simp only [hmember, Except.ok.injEq] at h
    rw [hg] at hline ⊢
    rw [← h, hline.ownedBy]

/-- The entries that the member is handed next. -/
def upcoming (ss : Streams) (name group : String) (count : Nat) : List Entry :=
  (fresh (ss.named name) ((ss.named name).groupOf group)).take count

/-- An entry that comes next is in the stream, and was not handed over yet. -/
theorem mem_upcoming {e : Entry} (h : e ∈ ss.upcoming name group count) :
    e ∈ (ss.named name).entries ∧ ((ss.named name).groupOf group).last.lt e.id = true :=
  List.mem_filter.mp (List.mem_of_mem_take h)

/-- New entries are handed over as they come in the stream. -/
theorem groupOf_readNew {entries : List Handed}
    (h : ss.readNew name group consumer count now = .ok (entries, ss')) :
    entries = (ss.upcoming name group count).map (fun e => (e.id.text, some e.fields)) ∧
      (ss'.named name).groupOf group = ((ss.named name).groupOf group).hand consumer now
        ((ss.upcoming name group count).map (·.id)) := by
  unfold readNew at h
  rcases hmember : ss.member name group with e | ⟨s, g⟩
  · simp [hmember] at h
  obtain ⟨rfl, hg, hgroup⟩ := groupOf_of_member hmember
  simp only [hmember, Except.ok.injEq, Prod.mk.injEq] at h
  obtain ⟨rfl, rfl⟩ := h
  -- a group to which nothing is handed over stays the same
  have hhand : (if (fresh (ss.named name) g).take count = [] then g
      else g.hand consumer now (((fresh (ss.named name) g).take count).map (·.id))) =
      g.hand consumer now ((ss.upcoming name group count).map (·.id)) := by
    rw [upcoming, hgroup]
    split
    · rename_i hnone
      rw [hnone]
      rfl
    · rfl
  refine ⟨by rw [upcoming, hgroup], ?_⟩
  rw [hhand, named_put_putGroup, Stream.groupOf_putGroup hg (by rfl), hgroup]

/-- What comes next is in order. -/
theorem upcoming_ordered {settled : String → Fields → Prop}
    (hkeeps : (ss.named name).Keeps settled group) :
    ((ss.upcoming name group count).map (·.id)).Pairwise fun a b => a.lt b = true :=
  List.pairwise_map.mpr ((hkeeps.ordered.filter _).sublist (List.take_sublist _ _))

/-- What comes next is after all that was handed over. -/
theorem lt_upcoming {id : EntryId} (h : id ∈ (ss.upcoming name group count).map (·.id)) :
    ((ss.named name).groupOf group).last.lt id = true := by
  obtain ⟨e, he, rfl⟩ := List.mem_map.mp h
  exact (mem_upcoming he).2

/-- What the member is handed gets in line, and it is the next in the stream. -/
theorem readNew_inLine {entries : List Handed} {settled : String → Fields → Prop}
    (hkeeps : (ss.named name).Keeps settled group)
    (hline : ((ss.named name).groupOf group).InLine consumer)
    (h : ss.readNew name group consumer count now = .ok (entries, ss')) :
    entries = (ss.upcoming name group count).map (fun e => (e.id.text, some e.fields)) ∧
      ((ss'.named name).groupOf group).InLine consumer ∧
      ((ss'.named name).groupOf group).pending.map (·.id) =
        ((ss.named name).groupOf group).pending.map (·.id) ++
          (ss.upcoming name group count).map (·.id) ∧
      ((ss.named name).groupOf group).last.le ((ss'.named name).groupOf group).last := by
  obtain ⟨hentries, hgroup⟩ := groupOf_readNew h
  have hordered : ((ss.upcoming name group count).map (·.id)).Pairwise
      fun a b => a.lt b = true := upcoming_ordered hkeeps
  rw [hgroup]
  refine ⟨hentries, hline.hand hordered fun _ => lt_upcoming, ?_,
    Group.last_le_hand fun _ => lt_upcoming⟩
  rw [hline.inOrder.pending_hand hordered fun _ => lt_upcoming]
  simp

/-- Where nothing is pending, nothing can be taken over. -/
theorem takeOver_inLine {least : Int} {entries : List (String × Fields)}
    (hnone : ((ss.named name).groupOf group).pending = [])
    (h : ss.takeOver name group consumer least count now = .ok (entries, ss')) :
    entries = [] ∧ (ss'.named name).groupOf group = (ss.named name).groupOf group := by
  unfold takeOver at h
  rcases hmember : ss.member name group with e | ⟨s, g⟩
  · simp [hmember] at h
  obtain ⟨rfl, hg, hgroup⟩ := groupOf_of_member hmember
  rw [hgroup] at hnone ⊢
  have hidle : g.idleFor now least = [] := by
    unfold Group.idleFor
    rw [hnone]
    rfl
  have hsift : sift (ss.named name) count [] = ([], []) := by
    cases count <;> rfl
  simp only [hmember, hidle, hsift, Except.ok.injEq, Prod.mk.injEq] at h
  obtain ⟨rfl, rfl⟩ := h
  rw [named_put_putGroup, Stream.groupOf_putGroup hg (by rfl), hnone]
  refine ⟨rfl, ?_⟩
  cases g
  simp_all

/-- An acknowledgement settles the entry in its group. -/
theorem groupOf_acknowledge (ss : Streams) (name group id : String) :
    ((ss.acknowledge name group id).named name).groupOf group =
      ((ss.named name).groupOf group).acknowledge id := by
  unfold acknowledge
  rcases hmember : ss.member name group with e | ⟨s, g⟩
  · have hnone : (ss.named name).group? group = none := by
      unfold member at hmember
      unfold named
      rcases hget : ss.get? name with _ | s
      · rfl
      · rcases hgroup : s.group? group with _ | g
        · exact hgroup
        · simp [hget, hgroup] at hmember
    unfold Stream.groupOf
    rw [hnone]
    rfl
  · obtain ⟨rfl, hg, hgroup⟩ := groupOf_of_member hmember
    dsimp only
    rw [named_put_putGroup, Stream.groupOf_putGroup hg (by rfl), hgroup]

/-- An acknowledgement leaves the fields of all entries as they are. -/
theorem fieldsOf?_acknowledge (ss : Streams) (name group entry : String) (id : EntryId) :
    ((ss.acknowledge name group entry).named name).fieldsOf? id =
      (ss.named name).fieldsOf? id := by
  unfold acknowledge
  rcases hmember : ss.member name group with e | ⟨s, g⟩
  · rfl
  · obtain ⟨rfl, -, -⟩ := groupOf_of_member hmember
    dsimp only
    rw [named_put_putGroup]
    rfl

/-- A group that is created knows what it knew before: nothing. -/
theorem groupOf_createGroup {newcomer : String} (h : ss.createGroup name newcomer = .ok ss') :
    (ss'.named name).groupOf group = (ss.named name).groupOf group := by
  unfold createGroup at h
  dsimp only at h
  rcases hnone : ((ss.get? name).getD (.empty name)).group? newcomer with _ | g
  · simp only [hnone, Except.ok.injEq] at h
    subst h
    change ((ss.withGroups name ((ss.named name).groups ++ [⟨newcomer, .zero, []⟩])).named
      name).groupOf group = _
    rw [named_withGroups]
    unfold Stream.groupOf Stream.group?
    dsimp only
    rw [List.find?_append]
    by_cases hname : newcomer = group
    · subst hname
      rw [show (ss.named name).groups.find? (·.name = newcomer) = none from hnone]
      simp
    · simp [hname]
  · simp [hnone] at h

end Streams

end EventRelay
