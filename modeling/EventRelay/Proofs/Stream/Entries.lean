import EventRelay.Proofs.Number.Digits
import EventRelay.Proofs.Stream.Streams
import Mathlib.Data.List.Pairwise

/-!
# Entries and the group that reads them

What becomes of the entries of a stream for a group of consumers.  An entry is still to be handed to
the group, or it is pending, or it was settled; nothing that anybody does to the stream loses one.

* `EntryId.text_injective`: an identifier is known by its written form.
* `Stream.Evolves`: what entries go through; `Stream.Vouches`: what a reader was told of an entry
  remains true.
* `Stream.Keeps`: every entry is still to be handed over, pending or settled.
* `Keeps.append`, `Keeps.readNew`, `Keeps.takeOver`, `Keeps.acknowledge` and their like: each
  operation preserves it.
-/

namespace EventRelay

/-! ## Names and identifiers -/

/-- Each partition has a stream of its own. -/
theorem streamName_injective {topic : String} {p q : Int}
    (h : streamName topic p = streamName topic q) : p = q :=
  Number.toString_injective ((String.append_right_inj _).mp h)

/-- The partition of a key is one of the partitions. -/
theorem mem_range_of_partitionFor {key : String} {n p : Int} (hn : 1 ≤ n)
    (h : partitionFor key n = .ok p) : 0 ≤ p ∧ p < n := by
  have hpos : 0 < n := hn
  have hsome : partitionFor key n = .ok (Int.fmod (Checksum.ofText key).toNat n) :=
    if_neg hpos.ne'
  rw [hsome] at h
  cases h
  exact ⟨Int.fmod_nonneg_of_pos _ hpos, Int.fmod_lt_of_pos _ hpos⟩

namespace EntryId

/-- Identifiers are in order by milliseconds, and then by number. -/
theorem lt_iff {a b : EntryId} :
    a.lt b = true ↔ a.ms < b.ms ∨ (a.ms = b.ms ∧ a.seq < b.seq) := by
  simp [lt]

/-- No identifier comes before itself. -/
@[simp] theorem lt_irrefl (a : EntryId) : a.lt a = false := by
  simp [lt]

/-- The first identifier does not come after the second. -/
def le (a b : EntryId) : Prop := b.lt a = false

/-- An identifier comes after none that it is not behind. -/
theorem le_iff {a b : EntryId} :
    a.le b ↔ ¬ (b.ms < a.ms ∨ (b.ms = a.ms ∧ b.seq < a.seq)) := by
  rw [le, ← Bool.not_eq_true, lt_iff]

theorem le_refl (a : EntryId) : a.le a := lt_irrefl a

theorem le_of_lt {a b : EntryId} (h : a.lt b = true) : a.le b := by
  rw [lt_iff] at h
  rw [le_iff]
  omega

theorem le_trans {a b c : EntryId} (hab : a.le b) (hbc : b.le c) : a.le c := by
  rw [le_iff] at *
  omega

theorem lt_of_le_of_lt {a b c : EntryId} (hab : a.le b) (hbc : b.lt c = true) :
    a.lt c = true := by
  rw [le_iff] at hab
  rw [lt_iff] at *
  omega

theorem not_lt_of_le {a b : EntryId} (h : a.le b) : b.lt a ≠ true := by
  rw [show b.lt a = false from h]
  exact Bool.false_ne_true

/-- A new identifier comes after the last one. -/
theorem lt_after (last : EntryId) (now : Instant) : last.lt (after last now) = true := by
  rw [lt_iff]
  unfold after
  dsimp only
  split
  · simp
  · simp only
    omega

/-- The text of an identifier is its milliseconds, a dash and its number. -/
theorem toList_text (i : EntryId) :
    i.text.toList = Nat.toDigits 10 i.ms ++ '-' :: Nat.toDigits 10 i.seq := by
  simp [text, toString]

/-- Different identifiers have different texts. -/
theorem text_injective {a b : EntryId} (h : a.text = b.text) : a = b := by
  have hlist := congrArg String.toList h
  rw [toList_text, toList_text] at hlist
  obtain ⟨hms, hrest⟩ := Number.eq_of_toDigits_append (Number.isDigit_of_dash _)
    (Number.isDigit_of_dash _) hlist
  have hseq := Number.toDigits_injective (List.cons.inj hrest).2
  cases a
  cases b
  rw [EntryId.mk.injEq]
  exact ⟨hms, hseq⟩

/-- What is in the order of identifiers is known by its identifier. -/
theorem eq_of_ordered {α : Type} {f : α → EntryId} {l : List α}
    (h : l.Pairwise fun a b => (f a).lt (f b) = true) {a b : α} (ha : a ∈ l) (hb : b ∈ l)
    (hid : f a = f b) : a = b := by
  by_contra hne
  have hor : (f a).lt (f b) = true ∨ (f b).lt (f a) = true := by
    have hpair : l.Pairwise fun a b => (f a).lt (f b) = true ∨ (f b).lt (f a) = true :=
      h.imp .inl
    have hsymm : Std.Symm fun a b : α => (f a).lt (f b) = true ∨ (f b).lt (f a) = true :=
      ⟨fun _ _ => Or.symm⟩
    exact hpair.forall ha hb hne
  simp [hid] at hor

end EntryId

namespace Stream

variable {s s' : Stream} {settled : String → Fields → Prop} {group : String} {keep : Prop}

/-! ## What entries go through -/

/-- What may become of a stream: entries may be removed, unless it keeps them, and new ones come
after all before. -/
structure Evolves (keep : Prop) (s s' : Stream) : Prop where
  /-- The last identifier only grows. -/
  last : s.lastId.le s'.lastId
  /-- What is there was there, or is new. -/
  grown : ∀ e ∈ s'.entries, e ∈ s.entries ∨ s.lastId.lt e.id = true
  /-- Nothing is removed from a stream that keeps its entries. -/
  kept : keep → ∀ e ∈ s.entries, e ∈ s'.entries

/-- A stream with the same entries has evolved. -/
theorem evolves_of_same (hentries : s'.entries = s.entries) (hlast : s'.lastId = s.lastId) :
    s.Evolves keep s' where
  last := hlast ▸ EntryId.le_refl _
  grown _ he := .inl (hentries ▸ he)
  kept _ _ he := hentries ▸ he

/-- A stream to which an entry was appended has evolved. -/
theorem evolves_append (s : Stream) (now : Instant) (fields : Fields) (maxlen : Option Int)
    (approximate : Bool) : s.Evolves keep (s.append now fields maxlen approximate).2 where
  last := EntryId.le_of_lt (EntryId.lt_after _ _)
  grown e he := by
    rcases List.mem_append.mp he with he | he
    · exact .inl he
    · rw [List.mem_singleton.mp he]
      exact .inr (EntryId.lt_after _ _)
  kept _ _ he := List.mem_append_left _ he

/-- A stream from which an entry was removed has evolved, if it need not keep them. -/
theorem evolves_erase (s : Stream) (id : String) (hkeep : ¬ keep) :
    s.Evolves keep (s.erase id) where
  last := EntryId.le_refl _
  grown _ he := .inl (List.mem_filter.mp he).1
  kept h := absurd h hkeep

/-- What a reader was told of an entry is true: it has these fields, or it has been removed. -/
def Vouches (s : Stream) (h : Handed) : Prop :=
  ∃ id : EntryId, id.text = h.1 ∧ id.le s.lastId ∧ ∀ e ∈ s.entries, e.id = id → h.2 = some e.fields

/-- What was true of an entry stays so. -/
theorem Vouches.evolve {h : Handed} (hs : s.Vouches h) (hevolves : s.Evolves keep s') :
    s'.Vouches h := by
  obtain ⟨id, htext, hle, hfields⟩ := hs
  refine ⟨id, htext, EntryId.le_trans hle hevolves.last, fun e he hid => ?_⟩
  rcases hevolves.grown e he with hold | hnew
  · exact hfields e hold hid
  · rw [hid] at hnew
    exact absurd hnew (EntryId.not_lt_of_le hle)

/-! ## What a group has still to see -/

/-- Where an entry stands with a group: it is still to be handed over, it is pending, or it was
settled with these fields. -/
def Stands (settled : String → Fields → Prop) (g : Group) (e : Entry) : Prop :=
  g.last.lt e.id = true ∨ (∃ p ∈ g.pending, p.id = e.id) ∨ settled e.id.text e.fields

/-- A stream in order, of which its group loses no entry. -/
structure Keeps (settled : String → Fields → Prop) (group : String) (s : Stream) : Prop where
  /-- Entries are in the order of their identifiers. -/
  ordered : s.entries.Pairwise fun a b => a.id.lt b.id = true
  /-- Every entry comes after the very beginning. -/
  above : ∀ e ∈ s.entries, EntryId.zero.lt e.id = true
  /-- No entry comes after the last identifier. -/
  below : ∀ e ∈ s.entries, e.id.le s.lastId
  /-- The group was handed nothing beyond it. -/
  last : ∀ g, s.group? group = some g → g.last.le s.lastId
  /-- Nor has it anything pending beyond it. -/
  pending : ∀ g, s.group? group = some g → ∀ p ∈ g.pending, p.id.le s.lastId
  /-- Every entry stands somewhere. -/
  stands : ∀ g, s.group? group = some g → ∀ e ∈ s.entries, Stands settled g e

/-- More may count as settled. -/
theorem Keeps.mono {settled' : String → Fields → Prop} (h : s.Keeps settled group)
    (hsettled : ∀ id fields, settled id fields → settled' id fields) :
    s.Keeps settled' group where
  ordered := h.ordered
  above := h.above
  below := h.below
  last := h.last
  pending := h.pending
  stands g hg e he := (h.stands g hg e he).imp_right (Or.imp_right (hsettled _ _))

/-- An empty stream is in order. -/
theorem keeps_empty (name : String) : (Stream.empty name).Keeps settled group where
  ordered := .nil
  above e he := absurd he List.not_mem_nil
  below e he := absurd he List.not_mem_nil
  last g hg := by cases hg
  pending g hg := by cases hg
  stands g hg := by cases hg

/-- Entries with one identifier are the same. -/
theorem Keeps.eq_of_id (h : s.Keeps settled group) {e e' : Entry} (he : e ∈ s.entries)
    (he' : e' ∈ s.entries) (hid : e.id = e'.id) : e = e' :=
  EntryId.eq_of_ordered h.ordered he he' hid

/-- The fields of an entry of a stream in order are found by its identifier. -/
theorem Keeps.fieldsOf? (h : s.Keeps settled group) {e : Entry} (he : e ∈ s.entries) :
    s.fieldsOf? e.id = some e.fields := by
  unfold Stream.fieldsOf?
  rcases hfind : s.entries.find? (·.id = e.id) with _ | e'
  · exact absurd (List.find?_eq_none.mp hfind e he) (by simp)
  · have hid : e'.id = e.id := by simpa using List.find?_some hfind
    rw [hfind, h.eq_of_id (List.mem_of_find?_eq_some hfind) he hid]
    rfl

/-- What the stream says of an entry is true. -/
theorem Keeps.vouches (h : s.Keeps settled group) {id : EntryId} (hle : id.le s.lastId) :
    s.Vouches (id.text, s.fieldsOf? id) := by
  refine ⟨id, rfl, hle, fun e he hid => ?_⟩
  rw [← hid]
  exact h.fieldsOf? he

/-! ## Operations on a stream -/

/-- A stream stays in order when an entry is appended. -/
theorem Keeps.append (h : s.Keeps settled group) (now : Instant) (fields : Fields)
    (maxlen : Option Int) (approximate : Bool) :
    (s.append now fields maxlen approximate).2.Keeps settled group := by
  have hlt := EntryId.lt_after s.lastId now
  have hzero : EntryId.zero.lt (EntryId.after s.lastId now) = true := by
    rw [EntryId.lt_iff] at *
    simp only [EntryId.zero]
    omega
  constructor
  case ordered =>
    refine List.pairwise_append.mpr ⟨h.ordered, List.pairwise_singleton _ _, ?_⟩
    intro e he e' he'
    rw [List.mem_singleton.mp he']
    exact EntryId.lt_of_le_of_lt (h.below e he) hlt
  case above =>
    intro e he
    rcases List.mem_append.mp he with he | he
    · exact h.above e he
    · rw [List.mem_singleton.mp he]
      exact hzero
  case below =>
    intro e he
    rcases List.mem_append.mp he with he | he
    · exact EntryId.le_trans (h.below e he) (EntryId.le_of_lt hlt)
    · rw [List.mem_singleton.mp he]
      exact EntryId.le_refl _
  case last => exact fun g hg => EntryId.le_trans (h.last g hg) (EntryId.le_of_lt hlt)
  case pending =>
    exact fun g hg p hp => EntryId.le_trans (h.pending g hg p hp) (EntryId.le_of_lt hlt)
  case stands =>
    intro g hg e he
    rcases List.mem_append.mp he with he | he
    · exact h.stands g hg e he
    · rw [List.mem_singleton.mp he]
      exact .inl (EntryId.lt_of_le_of_lt (h.last g hg) hlt)

/-- A stream stays in order when an entry is removed. -/
theorem Keeps.erase (h : s.Keeps settled group) (id : String) :
    (s.erase id).Keeps settled group where
  ordered := h.ordered.filter _
  above e he := h.above e (List.mem_filter.mp he).1
  below e he := h.below e (List.mem_filter.mp he).1
  last := h.last
  pending := h.pending
  stands g hg e he := h.stands g hg e (List.mem_filter.mp he).1

/-- Other groups do not matter. -/
theorem Keeps.regroup (h : s.Keeps settled group) {groups : List Group}
    (hsame : groups.find? (·.name = group) = s.group? group) :
    Stream.Keeps settled group { s with groups } where
  ordered := h.ordered
  above := h.above
  below := h.below
  last g hg := h.last g (hsame.symm.trans hg)
  pending g hg := h.pending g (hsame.symm.trans hg)
  stands g hg := h.stands g (hsame.symm.trans hg)

/-- A new group has still to see every entry. -/
theorem Keeps.newGroup (h : s.Keeps settled group) {name : String}
    (hnone : s.group? name = none) :
    Stream.Keeps settled group { s with groups := s.groups ++ [⟨name, .zero, []⟩] } := by
  by_cases hname : name = group
  · subst hname
    have hnew : (s.groups ++ [(⟨name, .zero, []⟩ : Group)]).find? (·.name = name) =
        some ⟨name, .zero, []⟩ := by
      rw [List.find?_append, show s.groups.find? (·.name = name) = none from hnone]
      simp
    constructor
    case ordered => exact h.ordered
    case above => exact h.above
    case below => exact h.below
    case last =>
      intro g hg
      cases hnew.symm.trans hg
      rw [EntryId.le_iff]
      simp [EntryId.zero]
    case pending =>
      intro g hg p hp
      cases hnew.symm.trans hg
      exact absurd hp List.not_mem_nil
    case stands =>
      intro g hg e he
      cases hnew.symm.trans hg
      exact .inl (h.above e he)
  · refine h.regroup ?_
    rw [List.find?_append]
    simp [hname, Stream.group?]

/-- A group that was changed is there. -/
theorem group?_putGroup {g g' : Group} (hg : s.group? group = some g)
    (hname : g'.name = g.name) : (s.putGroup g').group? group = some g' := by
  have hgname : g.name = group := by simpa using List.find?_some hg
  have hsame : ((fun h : Group => decide (h.name = group)) ∘
      fun h => if h.name = g'.name then g' else h) = fun h => decide (h.name = group) := by
    funext h
    dsimp only [Function.comp]
    split
    · simp [*]
    · rfl
  unfold Stream.group? at hg ⊢
  unfold Stream.putGroup
  rw [List.find?_map, hsame, hg]
  simp [hname]

/-- The group itself may change, as long as every entry stands somewhere. -/
theorem Keeps.putGroup {settled' : String → Fields → Prop} {g g' : Group}
    (h : s.Keeps settled group) (hg : s.group? group = some g) (hname : g'.name = g.name)
    (hlast : g'.last.le s.lastId) (hpending : ∀ p ∈ g'.pending, p.id.le s.lastId)
    (hstands : ∀ e ∈ s.entries, Stands settled' g' e) :
    (s.putGroup g').Keeps settled' group := by
  have hput := group?_putGroup hg hname
  constructor
  case ordered => exact h.ordered
  case above => exact h.above
  case below => exact h.below
  case last =>
    intro g'' hg''
    cases hput.symm.trans hg''
    exact hlast
  case pending =>
    intro g'' hg''
    cases hput.symm.trans hg''
    exact hpending
  case stands =>
    intro g'' hg''
    cases hput.symm.trans hg''
    exact hstands

/-! ## What a member of the group does -/

/-- What is filed is pending, and so is what was before. -/
theorem mem_file {p q : Pending} {ps : List Pending} :
    q ∈ Group.file p ps ↔ q = p ∨ q ∈ ps := by
  induction ps with
  | nil => simp [Group.file]
  | cons r rest ih =>
    unfold Group.file
    split
    · simp
    · simp only [List.mem_cons, ih]
      constructor
      · rintro (rfl | rfl | h)
        · exact .inr (.inl rfl)
        · exact .inl rfl
        · exact .inr (.inr h)
      · rintro (rfl | rfl | h)
        · exact .inr (.inl rfl)
        · exact .inl rfl
        · exact .inr (.inr h)

/-- What is pending after entries were handed over. -/
theorem mem_pending_hand {g : Group} {consumer : String} {now : Instant} {ids : List EntryId}
    {p : Pending} :
    p ∈ (g.hand consumer now ids).pending ↔
      p ∈ g.pending ∨ ∃ id ∈ ids, p = ⟨id, consumer, now.milliseconds, 1⟩ := by
  unfold Group.hand
  dsimp only
  generalize g.pending = ps
  induction ids generalizing ps with
  | nil => simp
  | cons id ids ih =>
    rw [List.foldl_cons, ih, mem_file]
    simp only [List.mem_cons, exists_eq_or_imp]
    constructor
    · rintro ((h | h) | h)
      · exact .inr (.inl h)
      · exact .inl h
      · exact .inr (.inr h)
    · rintro (h | h | h)
      · exact .inl (.inr h)
      · exact .inl (.inl h)
      · exact .inr h

/-- The last of some identifiers is one of them. -/
theorem getLastD_mem {ids : List EntryId} (h : ids ≠ []) (d : EntryId) : ids.getLastD d ∈ ids := by
  rw [List.getLastD_eq_getLast?, List.getLast?_eq_some_getLast h]
  exact List.getLast_mem h

/-- Entries that are handed over are pending afterwards. -/
theorem Keeps.hand (h : s.Keeps settled group) {g : Group} (hg : s.group? group = some g)
    (consumer : String) (now : Instant) (count : Nat)
    (hsome : (Streams.fresh s g).take count ≠ []) :
    (s.putGroup (g.hand consumer now
      (((Streams.fresh s g).take count).map (·.id)))).Keeps settled group := by
  have hfresh : ∀ e ∈ (Streams.fresh s g).take count, e ∈ s.entries := fun e he =>
    (List.mem_filter.mp (List.mem_of_mem_take he)).1
  have hlast : (((Streams.fresh s g).take count).map (·.id)).getLastD g.last ∈
      ((Streams.fresh s g).take count).map (·.id) :=
    getLastD_mem (by simpa using hsome) _
  obtain ⟨final, hfinal, hfinalid⟩ := List.mem_map.mp hlast
  refine h.putGroup hg rfl ?_ ?_ ?_
  · change (((Streams.fresh s g).take count).map (·.id)).getLastD g.last |>.le s.lastId
    rw [← hfinalid]
    exact h.below final (hfresh final hfinal)
  · intro p hp
    rcases mem_pending_hand.mp hp with hp | ⟨id, hid, rfl⟩
    · exact h.pending g hg p hp
    · obtain ⟨e, he, rfl⟩ := List.mem_map.mp hid
      exact h.below e (hfresh e he)
  · intro e he
    rcases h.stands g hg e he with hnew | ⟨p, hp, hid⟩ | hsettled
    · -- the entry is new: it is handed over now, or it comes after all that are
      have hmem : e ∈ Streams.fresh s g := List.mem_filter.mpr ⟨he, hnew⟩
      rw [← List.take_append_drop count (Streams.fresh s g)] at hmem
      rcases List.mem_append.mp hmem with htaken | hleft
      · refine .inr (.inl ⟨⟨e.id, consumer, now.milliseconds, 1⟩, ?_, rfl⟩)
        exact mem_pending_hand.mpr (.inr ⟨e.id, List.mem_map_of_mem htaken, rfl⟩)
      · left
        have hordered : (Streams.fresh s g).Pairwise fun a b => a.id.lt b.id = true :=
          h.ordered.filter _
        rw [← List.take_append_drop count (Streams.fresh s g)] at hordered
        have hlt := (List.pairwise_append.mp hordered).2.2 final hfinal e hleft
        rw [hfinalid] at hlt
        exact hlt
    · exact .inr (.inl ⟨p, mem_pending_hand.mpr (.inl hp), hid⟩)
    · exact .inr (.inr hsettled)

/-- Taking entries over drops only those that are gone from the pending ones. -/
theorem mem_sift {count : Nat} {ps : List Pending} :
    (∀ x ∈ (Streams.sift s count ps).1, s.fieldsOf? x.1 = some x.2 ∧ ∃ p ∈ ps, p.id = x.1) ∧
      ∀ id ∈ (Streams.sift s count ps).2, s.fieldsOf? id = none := by
  fun_induction Streams.sift s count ps with
  | case1 => simp
  | case2 => simp
  | case3 count p ps fields hfields found removed hsift ih =>
    rw [hsift] at ih
    constructor
    · intro x hx
      rcases List.mem_cons.mp hx with rfl | hx
      · exact ⟨hfields, p, List.mem_cons_self, rfl⟩
      · obtain ⟨hx, q, hq, hid⟩ := ih.1 x hx
        exact ⟨hx, q, List.mem_cons_of_mem _ hq, hid⟩
    · exact ih.2
  | case4 count p ps hfields found removed hsift ih =>
    rw [hsift] at ih
    constructor
    · intro x hx
      obtain ⟨hx, q, hq, hid⟩ := ih.1 x hx
      exact ⟨hx, q, List.mem_cons_of_mem _ hq, hid⟩
    · intro id hid
      rcases List.mem_cons.mp hid with rfl | hid
      · exact hfields
      · exact ih.2 id hid

/-- Pending entries may change hands, and those that are gone may be dropped. -/
theorem Keeps.handOver (h : s.Keeps settled group) {g : Group} (hg : s.group? group = some g)
    {removed : List EntryId} (hremoved : ∀ id ∈ removed, s.fieldsOf? id = none)
    (f : Pending → Pending) (hf : ∀ p, (f p).id = p.id) :
    (s.putGroup { g with
      pending := (g.pending.filter fun p => !removed.contains p.id).map f }).Keeps
      settled group := by
  refine h.putGroup hg rfl (h.last g hg) ?_ ?_
  · intro p hp
    obtain ⟨q, hq, rfl⟩ := List.mem_map.mp hp
    rw [hf]
    exact h.pending g hg q (List.mem_filter.mp hq).1
  · intro e he
    rcases h.stands g hg e he with hnew | ⟨p, hp, hid⟩ | hsettled
    · exact .inl hnew
    · refine .inr (.inl ⟨f p, List.mem_map_of_mem (List.mem_filter.mpr ⟨hp, ?_⟩), ?_⟩)
      · have hthere := h.fieldsOf? he
        rw [hid]
        by_contra hgone
        have hmem : e.id ∈ removed := by simpa using hgone
        rw [hremoved e.id hmem] at hthere
        cases hthere
      · rw [hf, hid]
    · exact .inr (.inr hsettled)

/-- An entry leaves the pending ones as it is settled. -/
theorem Keeps.acknowledge {settled' : String → Fields → Prop} (h : s.Keeps settled group)
    {g : Group} (hg : s.group? group = some g) (id : String)
    (hmono : ∀ id fields, settled id fields → settled' id fields)
    (hsettled : ∀ e ∈ s.entries, e.id.text = id → settled' id e.fields) :
    (s.putGroup (g.acknowledge id)).Keeps settled' group := by
  refine h.putGroup hg rfl (h.last g hg) ?_ ?_
  · exact fun p hp => h.pending g hg p (List.mem_filter.mp hp).1
  · intro e he
    rcases h.stands g hg e he with hnew | ⟨p, hp, hid⟩ | hold
    · exact .inl hnew
    · by_cases htext : e.id.text = id
      · right
        right
        rw [htext]
        exact hsettled e he htext
      · refine .inr (.inl ⟨p, List.mem_filter.mpr ⟨hp, ?_⟩, hid⟩)
        rw [hid]
        exact decide_eq_true htext
    · exact .inr (.inr (hmono _ _ hold))

end Stream

end EventRelay
