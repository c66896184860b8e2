import EventRelay.Proofs.Stream.InLine

/-!
# Idle entries that change hands

A group with any number of members, told by its pending entries: in which order they are, since when
nobody has been given them, and which of them a take-over picks.  A take-over goes through the idle
entries from the first one on, so it picks an idle entry unless its batch is full with earlier ones.

* `Streams.Orderly`: a stream and a group in order; every operation keeps them so.
* `Group.Becomes`: what an operation does to the pending entries; only one that hands an entry over
  changes since when it has been idle, and what is settled does not come back.
* `Group.Picks`: what a take-over picks.
* `Orderly.readNew`, `Orderly.takeOver`, `Orderly.acknowledge` and their like: each operation.
-/

namespace EventRelay

/-! ## Which entries are found -/

namespace Stream

variable {s : Stream} {count : Nat} {ps : List Pending}

/-- What is found is found in order. -/
theorem sift_sublist :
    ((Streams.sift s count ps).1.map (·.1)).Sublist (ps.map (·.id)) := by
  fun_induction Streams.sift s count ps with
  | case1 => exact List.nil_sublist _
  | case2 => exact .slnil
  | case3 count p ps fields hfields found removed hsift ih =>
    rw [hsift] at ih
    exact ih.cons_cons _
  | case4 count p ps hfields found removed hsift ih =>
    rw [hsift] at ih
    exact ih.cons _

/-- An entry is found or known to be removed, unless enough earlier ones are found. -/
theorem mem_or_full_of_mem (hordered : ps.Pairwise fun a b => a.id.lt b.id = true) {q : Pending}
    (hq : q ∈ ps) :
    q.id ∈ (Streams.sift s count ps).1.map (·.1) ∨ q.id ∈ (Streams.sift s count ps).2 ∨
      ((Streams.sift s count ps).1.length = count ∧
        ∀ x ∈ (Streams.sift s count ps).1, x.1.lt q.id = true) := by
  fun_induction Streams.sift s count ps with
  | case1 => exact .inr (.inr ⟨rfl, fun x hx => absurd hx List.not_mem_nil⟩)
  | case2 => exact absurd hq List.not_mem_nil
  | case3 count p ps fields hfields found removed hsift ih =>
    obtain ⟨hfirst, hrest⟩ := List.pairwise_cons.mp hordered
    rcases List.mem_cons.mp hq with rfl | hq
    · exact .inl List.mem_cons_self
    · have hlater := ih hrest hq
      rw [hsift] at hlater
      rcases hlater with hfound | hremoved | ⟨hlength, hbefore⟩
      · exact .inl (List.mem_cons_of_mem _ hfound)
      · exact .inr (.inl hremoved)
      · refine .inr (.inr ⟨by rw [List.length_cons, hlength], fun x hx => ?_⟩)
        rcases List.mem_cons.mp hx with rfl | hx
        · exact hfirst q hq
        · exact hbefore x hx
  | case4 count p ps hfields found removed hsift ih =>
    obtain ⟨-, hrest⟩ := List.pairwise_cons.mp hordered
    rcases List.mem_cons.mp hq with rfl | hq
    · exact .inr (.inl List.mem_cons_self)
    · have hlater := ih hrest hq
      rw [hsift] at hlater
      exact hlater.imp_right (Or.imp_left (List.mem_cons_of_mem _))

end Stream

/-! ## What becomes of pending entries -/

namespace Group

variable {g g' : Group} {time : Nat} {handed : List String}

/-- What becomes of pending entries as some are handed over at a time, by the milliseconds of the
broker. -/
structure Becomes (time : Nat) (handed : List String) (g g' : Group) : Prop where
  /-- The last entry handed over is never an earlier one. -/
  last : g.last.le g'.last
  /-- What is pending is new or was pending, and it is idle since it was handed over. -/
  pending : ∀ q' ∈ g'.pending, g.last.lt q'.id = true ∨
    ∃ q ∈ g.pending, q.id = q'.id ∧
      if q'.id.text ∈ handed then q'.since = time else q'.since = q.since

/-- Nothing is handed over, and entries may be settled. -/
theorem becomes_of_subset (hlast : g'.last = g.last) (hpending : g'.pending ⊆ g.pending) :
    g.Becomes time [] g' where
  last := hlast ▸ EntryId.le_refl _
  pending q hq := .inr ⟨q, hpending hq, rfl, by rw [if_neg List.not_mem_nil]⟩

/-- A group as it is has become of itself, with nothing handed over. -/
theorem becomes_refl (g : Group) (time : Nat) : g.Becomes time [] g :=
  becomes_of_subset rfl (List.Subset.refl _)

/-- What is pending and not new was pending before. -/
theorem Becomes.mem_pending (h : g.Becomes time handed g') {id : EntryId} (hid : id.le g.last)
    (hmem : id ∈ g'.pending.map (·.id)) : id ∈ g.pending.map (·.id) := by
  obtain ⟨q', hq', rfl⟩ := List.mem_map.mp hmem
  rcases h.pending q' hq' with hnew | ⟨q, hq, hsame, -⟩
  · exact absurd hnew (EntryId.not_lt_of_le hid)
  · exact hsame ▸ List.mem_map_of_mem hq

/-- Which entries a take-over picks that takes up to `count` of those that are idle for `least`
milliseconds. -/
structure Picks (least : Int) (count time : Nat) (picked : List String) (g g' : Group) :
    Prop where
  /-- None is picked twice. -/
  nodup : picked.Nodup
  /-- All were pending, and idle. -/
  idle : ∀ entry ∈ picked, ∃ q ∈ g.pending, q.id.text = entry ∧ q.since + least ≤ time
  /-- An idle entry that goes on to be pending is picked, unless enough earlier ones are. -/
  first : ∀ q ∈ g.pending, q.since + least ≤ time → q.id ∈ g'.pending.map (·.id) →
    q.id.text ∈ picked ∨
      (picked.length = count ∧
        ∀ entry ∈ picked, ∃ r ∈ g.pending, r.id.text = entry ∧ r.id.lt q.id = true)

end Group

/-! ## Operations -/

namespace Streams

variable {ss ss' : Streams} {name group : String} {consumer : String} {count : Nat}
  {now : Instant}

/-- A stream and a group in order. -/
structure Orderly (ss : Streams) (name group : String) : Prop where
  /-- The group loses no entry of the stream. -/
  keeps : (ss.named name).Keeps (fun _ _ => True) group
  /-- Its pending entries are in order. -/
  inOrder : ((ss.named name).groupOf group).InOrder

/-- Without streams everything is in order. -/
theorem orderly_nil (name group : String) : Orderly [] name group where
  keeps := Stream.keeps_empty name
  inOrder := ⟨.nil, fun _ hq => absurd hq List.not_mem_nil⟩

namespace Orderly

/-- What the stream and the group are not changed by leaves them in order. -/
theorem same (h : ss.Orderly name group)
    (hentries : (ss'.named name).entries = (ss.named name).entries)
    (hlast : (ss'.named name).lastId = (ss.named name).lastId)
    (hgroup : (ss'.named name).group? group = (ss.named name).group? group) :
    ss'.Orderly name group where
  keeps := h.keeps.same hentries hlast hgroup
  inOrder := by
    unfold Stream.groupOf
    rw [hgroup]
    exact h.inOrder

/-- Reading new entries leaves what is pending. -/
theorem readNew (h : ss.Orderly name group) {entries : List Handed} {time : Nat}
    (hread : ss.readNew name group consumer count now = .ok (entries, ss')) :
    ss'.Orderly name group ∧
      ((ss.named name).groupOf group).Becomes time [] ((ss'.named name).groupOf group) := by
  obtain ⟨-, hkeeps, -⟩ := readNew_spec h.keeps hread
  obtain ⟨-, hgroup⟩ := groupOf_readNew hread
  refine ⟨⟨hkeeps, ?_⟩, ?_⟩
  · rw [hgroup]
    exact h.inOrder.hand (upcoming_ordered h.keeps) fun _ => lt_upcoming
  · rw [hgroup]
    refine ⟨Group.last_le_hand fun _ => lt_upcoming, fun q hq => ?_⟩
    rcases Stream.mem_pending_hand.mp hq with hq | ⟨id, hid, rfl⟩
    · exact .inr ⟨q, hq, rfl, by rw [if_neg List.not_mem_nil]⟩
    · exact .inl (lt_upcoming hid)

/-- An acknowledgement only takes something away from what is pending. -/
theorem acknowledge (h : ss.Orderly name group) (id : String) {time : Nat} :
    (ss.acknowledge name group id).Orderly name group ∧
      ((ss.named name).groupOf group).Becomes time []
        (((ss.acknowledge name group id).named name).groupOf group) := by
  have hkeeps : ((ss.acknowledge name group id).named name).Keeps (fun _ _ => True) group :=
    (acknowledge_spec h.keeps id (fun _ _ h => h) fun _ _ _ => trivial).2
  rw [groupOf_acknowledge]
  refine ⟨⟨hkeeps, ?_⟩, Group.becomes_of_subset rfl List.filter_sublist.subset⟩
  rw [groupOf_acknowledge]
  exact h.inOrder.sublist rfl (List.filter_sublist.map _)

/-- Appending an entry leaves what is pending. -/
theorem append (h : ss.Orderly name group) (fields : Fields) (maxlen : Option Int)
    (approximate : Bool) {time : Nat} :
    (ss.append name now fields maxlen approximate).2.Orderly name group ∧
      ((ss.named name).groupOf group).Becomes time []
        (((ss.append name now fields maxlen approximate).2.named name).groupOf group) := by
  have hkeeps := keeps_append ss name name now fields maxlen approximate h.keeps
  have hgroup : ((ss.append name now fields maxlen approximate).2.named name).groupOf group =
      (ss.named name).groupOf group := by
    rw [named_append_self]
    rfl
  exact ⟨⟨hkeeps, hgroup ▸ h.inOrder⟩, hgroup ▸ Group.becomes_refl _ _⟩

/-- Removing an entry leaves what is pending. -/
theorem erase (h : ss.Orderly name group) (id : String) {time : Nat} :
    (ss.erase name id).Orderly name group ∧
      ((ss.named name).groupOf group).Becomes time []
        (((ss.erase name id).named name).groupOf group) := by
  have hkeeps := keeps_erase h.keeps name id
  have hgroup : ((ss.erase name id).named name).groupOf group =
      (ss.named name).groupOf group := by
    rw [named_erase_self]
    rfl
  exact ⟨⟨hkeeps, hgroup ▸ h.inOrder⟩, hgroup ▸ Group.becomes_refl _ _⟩

/-- Creating a group leaves what is pending. -/
theorem createGroup (h : ss.Orderly name group) {newcomer : String}
    (hcreate : ss.createGroup name newcomer = .ok ss') {time : Nat} :
    ss'.Orderly name group ∧
      ((ss.named name).groupOf group).Becomes time [] ((ss'.named name).groupOf group) := by
  have hkeeps := (createGroup_spec hcreate).2 _ _ h.keeps
  have hgroup : (ss'.named name).groupOf group = (ss.named name).groupOf group :=
    groupOf_createGroup hcreate
  exact ⟨⟨hkeeps, hgroup ▸ h.inOrder⟩, hgroup ▸ Group.becomes_refl _ _⟩

end Orderly

/-! ### Taking over -/

section takeOver

variable {least : Int} {entries : List (String × Fields)}

/-- The idle entries that a take-over finds, and the removed ones that it meets. -/
def sifted (ss : Streams) (name group : String) (least : Int) (count : Nat) (now : Instant) :
    List (EntryId × Fields) × List EntryId :=
  sift (ss.named name) count (((ss.named name).groupOf group).idleFor now least)

/-- What a take-over finds is handed over, and what is removed is not pending any more. -/
theorem groupOf_takeOver
    (h : ss.takeOver name group consumer least count now = .ok (entries, ss')) :
    entries.map (·.1) = ((ss.sifted name group least count now).1.map (·.1)).map (·.text) ∧
      ((ss'.named name).groupOf group).last = ((ss.named name).groupOf group).last ∧
      ((ss'.named name).groupOf group).pending =
        (((ss.named name).groupOf group).pending.filter fun p =>
          !(ss.sifted name group least count now).2.contains p.id).map fun p =>
            if ((ss.sifted name group least count now).1.map (·.1)).contains p.id then
              { p with
                owner := consumer
                since := now.milliseconds
                deliveries := p.deliveries + 1 }
            else p := by
  unfold takeOver at h
  rcases hmember : ss.member name group with e | ⟨s, g⟩
  · simp [hmember] at h
  obtain ⟨rfl, hg, hgroup⟩ := groupOf_of_member hmember
  simp only [hmember, Except.ok.injEq, Prod.mk.injEq] at h
  obtain ⟨rfl, rfl⟩ := h
  unfold sifted
  rw [hgroup, named_put_putGroup, Stream.groupOf_putGroup hg (by rfl), List.map_map, List.map_map]
  exact ⟨rfl, rfl, rfl⟩

/-- A take-over hands over what it returns, at its time. -/
theorem Orderly.takeOver (h : ss.Orderly name group)
    (htake : ss.takeOver name group consumer least count now = .ok (entries, ss')) :
    ss'.Orderly name group ∧
      ((ss.named name).groupOf group).Becomes now.milliseconds (entries.map (·.1))
        ((ss'.named name).groupOf group) := by
  obtain ⟨-, hkeeps, -⟩ := takeOver_spec h.keeps htake
  obtain ⟨hentries, hlast, hpending⟩ := groupOf_takeOver htake
  refine ⟨⟨hkeeps, h.inOrder.sublist hlast ?_⟩, hlast ▸ EntryId.le_refl _, ?_⟩
  · rw [hpending, List.map_map, List.map_congr_left fun p _ => ?_]
    · exact List.filter_sublist.map _
    · dsimp only [Function.comp]
      split <;> rfl
  · intro q' hq'
    rw [hpending] at hq'
    obtain ⟨q, hq, rfl⟩ := List.mem_map.mp hq'
    refine .inr ⟨q, (List.mem_filter.mp hq).1, ?_⟩
    rw [hentries]
    split
    · rename_i hfound
      have hmem := List.contains_iff_mem.mp hfound
      exact ⟨rfl, by rw [if_pos (List.mem_map_of_mem hmem)]⟩
    · rename_i hfound
      refine ⟨rfl, ?_⟩
      rw [if_neg fun hmem => ?_]
      obtain ⟨id, hid, htext⟩ := List.mem_map.mp hmem
      rw [← EntryId.text_injective htext] at hfound
      exact hfound (List.contains_iff_mem.mpr hid)

/-- What a take-over picks. -/
theorem Orderly.picks (h : ss.Orderly name group)
    (htake : ss.takeOver name group consumer least count now = .ok (entries, ss')) :
    Group.Picks least count now.milliseconds (entries.map (·.1)) ((ss.named name).groupOf group)
      ((ss'.named name).groupOf group) := by
  obtain ⟨hentries, -, hpending⟩ := groupOf_takeOver htake
  have hordered : (((ss.named name).groupOf group).idleFor now least).Pairwise
      fun a b => a.id.lt b.id = true := h.inOrder.ordered.filter _
  -- what is found was pending and idle
  have hidle : ∀ id ∈ (ss.sifted name group least count now).1.map (·.1),
      ∃ q ∈ ((ss.named name).groupOf group).pending, q.id = id ∧
        q.since + least ≤ now.milliseconds := by
    intro id hid
    obtain ⟨q, hq, hqid⟩ := List.mem_map.mp (Stream.sift_sublist.subset hid)
    obtain ⟨hmem, hsince⟩ := List.mem_filter.mp hq
    exact ⟨q, hmem, hqid, of_decide_eq_true hsince⟩
  rw [hentries]
  constructor
  case nodup =>
    have hids : ((ss.sifted name group least count now).1.map (·.1)).Pairwise
        fun a b => a.lt b = true :=
      (List.pairwise_map.mpr hordered).sublist Stream.sift_sublist
    refine List.pairwise_map.mpr (hids.imp fun hlt htext => ?_)
    rw [EntryId.text_injective htext, EntryId.lt_irrefl] at hlt
    cases hlt
  case idle =>
    intro entry hentry
    obtain ⟨id, hid, rfl⟩ := List.mem_map.mp hentry
    obtain ⟨q, hq, rfl, hsince⟩ := hidle id hid
    exact ⟨q, hq, rfl, hsince⟩
  case first =>
    intro q hq hsince hstays
    have hmem : q ∈ ((ss.named name).groupOf group).idleFor now least :=
      List.mem_filter.mpr ⟨hq, decide_eq_true hsince⟩
    rcases Stream.mem_or_full_of_mem hordered hmem with hfound | hremoved | ⟨hlength, hbefore⟩
    · exact .inl (List.mem_map_of_mem hfound)
    · -- a removed entry is not pending afterwards
      rw [hpending, List.map_map] at hstays
      obtain ⟨r, hr, hid⟩ := List.mem_map.mp hstays
      have hrid : r.id = q.id := by
        rw [← hid]
        dsimp only [Function.comp]
        split <;> rfl
      have hkept := (List.mem_filter.mp hr).2
      rw [hrid, Bool.not_eq_true'] at hkept
      exact absurd (List.contains_iff_mem.mpr hremoved) (Bool.eq_false_iff.mp hkept)
    · refine .inr ⟨by rw [List.length_map, List.length_map]; exact hlength, fun entry hentry => ?_⟩
      obtain ⟨id, hid, rfl⟩ := List.mem_map.mp hentry
      obtain ⟨x, hx, rfl⟩ := List.mem_map.mp hid
      obtain ⟨r, hr, hrid, -⟩ := hidle x.1 hid
      exact ⟨r, hr, congrArg EntryId.text hrid, hrid ▸ hbefore x hx⟩

end takeOver

end Streams

end EventRelay
