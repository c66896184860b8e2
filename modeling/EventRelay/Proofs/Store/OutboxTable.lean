import EventRelay.Store.Outbox
import Mathlib.Data.List.Nodup

/-!
# The outbox, row by row

What the operations on the outbox do to each row, and what they leave alone.

* `OutboxRow.asAppended`: the part of a row that no operation changes.
* `Outbox.Descends`: a table later, when no row was appended.
* `lt_nextId`: a new row's identifier is above every identifier that is there.
* `Outbox.claim_snd`: a claim changes the rows of its batch only.
* `Outbox.changeClaimed_snd`, `Outbox.releaseStale_snd`: an outcome changes the claimed row of its
  identifier only, and the watchdog changes stale claims only.
* `Outbox.status_of_purged`: a cleanup removes published rows only.
-/

namespace EventRelay

/-- The next identifier is greater than all that were given out. -/
theorem lt_nextId {ids : List Int} {id : Int} (h : id ∈ ids) : id < nextId ids := by
  have hfold : ∀ (ids : List Int) (m : Int), m ≤ ids.foldl max m ∧
      ∀ i ∈ ids, i ≤ ids.foldl max m := by
    intro ids
    induction ids with
    | nil => exact fun m => ⟨Int.le_refl m, fun i hi => absurd hi List.not_mem_nil⟩
    | cons x ids ih =>
      intro m
      obtain ⟨hm, hall⟩ := ih (max m x)
      refine ⟨Int.le_trans (Int.le_max_left m x) hm, fun i hi => ?_⟩
      rcases List.mem_cons.mp hi with rfl | hi
      · exact Int.le_trans (Int.le_max_right m i) hm
      · exact hall i hi
  have := (hfold ids 0).2 id h
  unfold nextId
  omega

/-- The row as it was when it was appended; what no operation changes is told by it. -/
def OutboxRow.asAppended (r : OutboxRow) : OutboxRow :=
  { r with status := .pending, processedAt := none, retryCount := 0, errorMessage := none }

namespace OutboxRow

variable {r q : OutboxRow}

/-- The row as it was appended tells its identifier. -/
theorem id_eq_of_asAppended (h : r.asAppended = q.asAppended) : r.id = q.id := by
  have := congrArg OutboxRow.id h
  exact this

/-- The row as it was appended tells its key. -/
theorem key_eq_of_asAppended (h : r.asAppended = q.asAppended) : r.key = q.key := by
  have := congrArg OutboxRow.key h
  exact this

end OutboxRow

namespace Outbox

variable {t t' : Outbox} {r q : OutboxRow} {batch : Int} {now olderThan : Instant}

/-! ## Identifiers -/

/-- Identifiers grow along the table. -/
def Ordered (t : Outbox) : Prop := (t.map (·.id)).Pairwise (· < ·)

/-- No two rows have one identifier. -/
def Distinct (t : Outbox) : Prop := ∀ r ∈ t, ∀ q ∈ t, r.id = q.id → r = q

/-- Where no identifier occurs twice no two rows have one. -/
theorem distinct_of_nodup (h : (t.map (·.id)).Nodup) : t.Distinct :=
  fun _ hr _ hq hid => List.inj_on_of_nodup_map h hr hq hid

/-- Where identifiers grow none occurs twice. -/
theorem Ordered.nodup (h : t.Ordered) : (t.map (·.id)).Nodup :=
  h.imp fun {a b} (hlt : a < b) => Int.ne_of_lt hlt

/-- Where identifiers grow no two rows have one. -/
theorem Ordered.distinct (h : t.Ordered) : t.Distinct := distinct_of_nodup h.nodup

/-- A later table without new rows: each row is a former one later. -/
structure Descends (t' t : Outbox) : Prop where
  /-- No identifier is new, and none has moved. -/
  ids : (t'.map (·.id)).Sublist (t.map (·.id))
  /-- Each row was appended before. -/
  each : ∀ r' ∈ t', ∃ r ∈ t, r'.asAppended = r.asAppended

/-- A table that descends from a later one descends from the earlier one. -/
theorem Descends.trans {t'' : Outbox} (h' : t''.Descends t') (h : t'.Descends t) :
    t''.Descends t where
  ids := h'.ids.trans h.ids
  each r hr := by
    obtain ⟨q, hq, hrq⟩ := h'.each r hr
    obtain ⟨p, hp, hqp⟩ := h.each q hq
    exact ⟨p, hp, hrq.trans hqp⟩

/-- Identifiers still grow in a table that descends from one where they do. -/
theorem Descends.ordered (h : t'.Descends t) (ht : t.Ordered) : t'.Ordered :=
  List.Pairwise.sublist h.ids ht

/-- A table descends from one with more rows. -/
theorem descends_of_sublist (h : List.Sublist t' t) : t'.Descends t where
  ids := h.map _
  each r hr := ⟨r, h.subset hr, rfl⟩

/-- A table descends from one whose rows were changed in what may change. -/
theorem descends_map {g : OutboxRow → OutboxRow} (hg : ∀ r, (g r).asAppended = r.asAppended) :
    Descends (t.map g) t where
  ids := by
    have hid : ((fun r : OutboxRow => r.id) ∘ g) = fun r => r.id :=
      funext fun r => OutboxRow.id_eq_of_asAppended (hg r)
    rw [List.map_map, hid]
  each r' hr' := by
    obtain ⟨r, hr, rfl⟩ := List.mem_map.mp hr'
    exact ⟨r, hr, hg r⟩

/-! ## Appending -/

/-- An appended row has a greater identifier than all rows before it. -/
theorem lt_append_id (eventType topic payload : String) (key : Option String)
    (createdAt : Instant) (h : r ∈ t) :
    r.id < (t.append eventType topic payload key createdAt).1.id :=
  lt_nextId (List.mem_map_of_mem h)

/-! ## Claiming -/

/-- The rows that a claim picks, in order. -/
def chosen (t : Outbox) (batch : Int) : List OutboxRow :=
  takeUpTo batch ((t.filter (isEligible t)).mergeSort claimsBefore)

/-- A claim returns the rows that it picks, as they are then. -/
theorem claim_fst (t : Outbox) (batch : Int) (now : Instant) :
    (t.claim batch now).1 = (t.chosen batch).map (claimed now) := rfl

/-- A claim picks from the rows that may be claimed, in their order. -/
theorem chosen_sublist (t : Outbox) (batch : Int) :
    (t.chosen batch).Sublist ((t.filter (isEligible t)).mergeSort claimsBefore) := by
  unfold chosen takeUpTo
  split
  · exact List.Sublist.refl _
  · exact List.take_sublist _ _

/-- What a claim picks is a row of the table that may be claimed. -/
theorem mem_of_mem_chosen (h : r ∈ t.chosen batch) : r ∈ t ∧ isEligible t r = true := by
  have hsort := (chosen_sublist t batch).subset h
  rw [List.mem_mergeSort] at hsort
  exact List.mem_filter.mp hsort

/-- A row that may be claimed waits. -/
theorem status_of_isEligible (h : isEligible t r = true) : r.status = .pending := by
  unfold isEligible at h
  simp only [Bool.and_eq_true, decide_eq_true_eq] at h
  exact h.1

/-- An unfinished row of the key of an eligible one comes no earlier. -/
theorem le_of_isEligible (h : isEligible t r = true) (hq : q ∈ t) (hkey : r.key ≠ none)
    (hsame : q.key = r.key) (hflight : q.status.inFlight = true) : r.id ≤ q.id := by
  unfold isEligible at h
  simp only [Bool.and_eq_true, Bool.not_eq_true', List.any_eq_false] at h
  by_contra hlt
  refine h.2 q hq ?_
  unfold holdsBack
  simp only [Bool.and_eq_true, decide_eq_true_eq, Option.isSome_iff_ne_none]
  exact ⟨⟨⟨hkey, hsame⟩, Int.not_le.mp hlt⟩, hflight⟩

/-- The identifiers of a batch tell its rows from all others. -/
theorem contains_chosen_iff (ht : t.Distinct) (hr : r ∈ t) :
    ((t.chosen batch).map (·.id)).contains r.id = true ↔ r ∈ t.chosen batch := by
  rw [List.contains_iff_mem, List.mem_map]
  constructor
  · rintro ⟨q, hq, hid⟩
    rw [← ht q (mem_of_mem_chosen hq).1 r hr hid]
    exact hq
  · exact fun h => ⟨r, h, rfl⟩

/-- The outbox after a claim: the rows of the batch are claimed, every other one is as before. -/
theorem claim_snd (ht : t.Distinct) :
    (t.claim batch now).2 = t.map fun r => if r ∈ t.chosen batch then claimed now r else r := by
  refine List.map_congr_left fun r hr => ?_
  change (if ((t.chosen batch).map (·.id)).contains r.id then _ else _) = _
  by_cases hmem : r ∈ t.chosen batch
  · rw [if_pos ((contains_chosen_iff ht hr).mpr hmem), if_pos hmem]
  · rw [if_neg (fun h => hmem ((contains_chosen_iff ht hr).mp h)), if_neg hmem]

/-- A claim changes nothing that may not change. -/
theorem asAppended_claimed (now : Instant) (r : OutboxRow) :
    (claimed now r).asAppended = r.asAppended := rfl

/-- After a claim the table descends from what it was. -/
theorem claim_descends (t : Outbox) (batch : Int) (now : Instant) :
    (t.claim batch now).2.Descends t :=
  descends_map fun r => by
    split
    · exact asAppended_claimed now r
    · rfl

/-- A claim picks no identifier twice. -/
theorem nodup_chosen_ids (ht : (t.map (·.id)).Nodup) : ((t.chosen batch).map (·.id)).Nodup := by
  have hfilter : ((t.filter (isEligible t)).map (·.id)).Nodup :=
    ht.sublist (List.filter_sublist.map _)
  have hsort : (((t.filter (isEligible t)).mergeSort claimsBefore).map (·.id)).Nodup :=
    ((List.mergeSort_perm _ _).map _).nodup_iff.mpr hfilter
  exact hsort.sublist ((chosen_sublist t batch).map _)

/-! ## Outcomes -/

/-- Whether an outcome for an identifier changes a row. -/
def IsHit (id : Int) (r : OutboxRow) : Prop := r.id = id ∧ r.status = .processing

instance (id : Int) (r : OutboxRow) : Decidable (IsHit id r) := inferInstanceAs (Decidable (_ ∧ _))

/-- Whether the row of an identifier is claimed. -/
def isClaimed (t : Outbox) (id : Int) : Bool := t.any fun r => r.id = id && r.status = .processing

/-- An identifier is claimed if an outcome for it changes a row. -/
theorem isClaimed_iff {id : Int} : t.isClaimed id = true ↔ ∃ r ∈ t, IsHit id r := by
  unfold isClaimed
  rw [List.any_eq_true]
  simp [IsHit]

/-- An outcome changes the rows that it hits, and leaves the others. -/
theorem changeClaimed_snd (t : Outbox) (id : Int) (change : OutboxRow → OutboxRow) :
    (t.changeClaimed id change).2 = t.map fun r => if IsHit id r then change r else r := by
  refine List.map_congr_left fun r _ => ?_
  have hiff : (decide (r.id = id) && decide (r.status = .processing)) = true ↔ IsHit id r := by
    simp [IsHit]
  by_cases hhit : IsHit id r
  · rw [if_pos (hiff.mpr hhit), if_pos hhit]
  · rw [if_neg (fun h => hhit (hiff.mp h)), if_neg hhit]

/-- After an outcome the table descends from what it was. -/
theorem changeClaimed_descends (t : Outbox) (id : Int) {change : OutboxRow → OutboxRow}
    (hchange : ∀ r, (change r).asAppended = r.asAppended) :
    (t.changeClaimed id change).2.Descends t :=
  descends_map fun r => by
    split
    · exact hchange r
    · rfl

/-! ## The watchdog -/

/-- A row after the watchdog has looked at it. -/
def afterRelease (olderThan : Instant) (maxRetries : Int) (r : OutboxRow) : OutboxRow :=
  if isStale olderThan r then released maxRetries r else r

/-- The watchdog looks at each row by itself. -/
theorem releaseStale_snd (t : Outbox) (olderThan : Instant) (maxRetries : Int) :
    (t.releaseStale olderThan maxRetries).2 = t.map (afterRelease olderThan maxRetries) := rfl

/-- Taking a claim back changes nothing that may not change. -/
theorem asAppended_released (maxRetries : Int) (r : OutboxRow) :
    (released maxRetries r).asAppended = r.asAppended := by
  unfold released
  dsimp only
  split <;> rfl

/-- The watchdog changes nothing that may not change. -/
theorem asAppended_afterRelease (olderThan : Instant) (maxRetries : Int) (r : OutboxRow) :
    (afterRelease olderThan maxRetries r).asAppended = r.asAppended := by
  unfold afterRelease
  split
  · exact asAppended_released maxRetries r
  · rfl

/-- After the watchdog the table descends from what it was. -/
theorem releaseStale_descends (t : Outbox) (olderThan : Instant) (maxRetries : Int) :
    (t.releaseStale olderThan maxRetries).2.Descends t :=
  descends_map (asAppended_afterRelease olderThan maxRetries)

/-- The watchdog takes a claim back only if it is older than its limit. -/
theorem isStale_iff : isStale olderThan r = true ↔
    r.status = .processing ∧ ∃ at', r.processedAt = some at' ∧ at' < olderThan := by
  unfold isStale
  simp [Option.any_eq_true]

/-- A row after stale claims were taken back and a batch was claimed. -/
def afterClaim (t : Outbox) (olderThan : Instant) (maxRetries batch : Int) (now : Instant)
    (r : OutboxRow) : OutboxRow :=
  let q := afterRelease olderThan maxRetries r
  if q ∈ chosen (t.releaseStale olderThan maxRetries).2 batch then claimed now q else q

/-- The watchdog and a claim after it, row by row. -/
theorem claim_releaseStale_snd (ht : t.Ordered) (olderThan : Instant) (maxRetries batch : Int)
    (now : Instant) : ((t.releaseStale olderThan maxRetries).2.claim batch now).2 =
      t.map (afterClaim t olderThan maxRetries batch now) := by
  rw [claim_snd ((releaseStale_descends t olderThan maxRetries).ordered ht).distinct]
  rw [releaseStale_snd, List.map_map]
  rfl

/-- The two together change nothing that may not change. -/
theorem asAppended_afterClaim (olderThan : Instant) (maxRetries batch : Int) (now : Instant)
    (r : OutboxRow) :
    (afterClaim t olderThan maxRetries batch now r).asAppended = r.asAppended := by
  unfold afterClaim
  dsimp only
  split
  · exact asAppended_afterRelease olderThan maxRetries r
  · exact asAppended_afterRelease olderThan maxRetries r

/-- A claim that the watchdog took back counts as a failed attempt. -/
theorem retryCount_released (maxRetries : Int) (r : OutboxRow) :
    (released maxRetries r).retryCount = r.retryCount + 1 := by
  unfold released
  dsimp only
  split <;> rfl

/-- The watchdog adds one attempt at most. -/
theorem retryCount_afterRelease (olderThan : Instant) (maxRetries : Int) (r : OutboxRow) :
    r.retryCount ≤ (afterRelease olderThan maxRetries r).retryCount ∧
      (afterRelease olderThan maxRetries r).retryCount ≤ r.retryCount + 1 := by
  unfold afterRelease
  split
  · rw [retryCount_released]
    omega
  · omega

/-- A claim that was taken back waits or is given up. -/
theorem status_released (maxRetries : Int) (r : OutboxRow) :
    (released maxRetries r).status = .pending ∨ (released maxRetries r).status = .failed := by
  unfold released
  dsimp only
  split
  · exact .inr rfl
  · exact .inl rfl

/-- A claim leaves published rows alone, and publishes none. -/
theorem afterClaim_of_published {maxRetries : Int}
    (h : (afterClaim t olderThan maxRetries batch now r).status = .published) :
    afterClaim t olderThan maxRetries batch now r = r := by
  unfold afterClaim at h ⊢
  dsimp only at h ⊢
  by_cases hchosen : afterRelease olderThan maxRetries r ∈
      chosen (t.releaseStale olderThan maxRetries).2 batch
  · rw [if_pos hchosen] at h
    cases h
  rw [if_neg hchosen] at h ⊢
  unfold afterRelease at h ⊢
  by_cases hstale : isStale olderThan r = true
  · rw [if_pos hstale] at h
    rcases status_released maxRetries r with hstatus | hstatus
    · rw [hstatus] at h
      cases h
    · rw [hstatus] at h
      cases h
  · rw [if_neg hstale]

/-! ## Cleaning up -/

/-- A cleanup only removes rows. -/
theorem purge_sublist (t : Outbox) (cutoff : Instant) : (t.purge cutoff).2.Sublist t :=
  List.filter_sublist

/-- A cleanup removes what was published before the cutoff, and nothing else. -/
theorem isSpent_of_purged {cutoff : Instant} (hr : r ∈ t) (hgone : r ∉ (t.purge cutoff).2) :
    isSpent cutoff r = true := by
  by_contra hnot
  refine hgone (List.mem_filter.mpr ⟨hr, ?_⟩)
  rw [Bool.not_eq_true] at hnot
  rw [hnot]
  rfl

/-- A spent row was published before the cutoff. -/
theorem isSpent_iff {cutoff : Instant} : isSpent cutoff r = true ↔
    r.status = .published ∧ ∃ at', r.processedAt = some at' ∧ at' < cutoff := by
  unfold isSpent
  simp [Option.any_eq_true]

/-- A row that a cleanup removes was published. -/
theorem status_of_purged {cutoff : Instant} (hr : r ∈ t) (hgone : r ∉ (t.purge cutoff).2) :
    r.status = .published := (isSpent_iff.mp (isSpent_of_purged hr hgone)).1

/-! ## One row of a key at a time -/

/-- A claimed row is the first unfinished one of its key. -/
def Heads (t : Outbox) : Prop :=
  ∀ r ∈ t, ∀ q ∈ t, r.status = .processing → r.key ≠ none → q.key = r.key →
    q.status.inFlight = true → r.id ≤ q.id

/-- A change of rows that claims none and takes none up again. -/
structure Calm (g : OutboxRow → OutboxRow) : Prop where
  /-- It leaves the row what it is. -/
  asAppended : ∀ r, (g r).asAppended = r.asAppended
  /-- It claims nothing. -/
  processing : ∀ r, (g r).status = .processing → r.status = .processing
  /-- It takes up nothing that is finished. -/
  inFlight : ∀ r, (g r).status.inFlight = true → r.status.inFlight = true

/-- A change that claims nothing leaves claimed rows the first of their keys. -/
theorem Heads.map {g : OutboxRow → OutboxRow} (h : t.Heads) (hg : Calm g) :
    Heads (t.map g) := by
  intro r' hr' q' hq' hstatus hkey hsame hflight
  obtain ⟨r, hr, rfl⟩ := List.mem_map.mp hr'
  obtain ⟨q, hq, rfl⟩ := List.mem_map.mp hq'
  have hle := h r hr q hq (hg.processing r hstatus)
  rw [OutboxRow.key_eq_of_asAppended (hg.asAppended r)] at hkey hsame
  rw [OutboxRow.key_eq_of_asAppended (hg.asAppended q)] at hsame
  rw [OutboxRow.id_eq_of_asAppended (hg.asAppended r),
    OutboxRow.id_eq_of_asAppended (hg.asAppended q)]
  exact hle hkey hsame (hg.inFlight q hflight)

/-- The watchdog claims nothing. -/
theorem calm_afterRelease (olderThan : Instant) (maxRetries : Int) :
    Calm (afterRelease olderThan maxRetries) where
  asAppended := asAppended_afterRelease olderThan maxRetries
  processing r h := by
    unfold afterRelease at h
    split at h
    · rename_i hstale
      exact (isStale_iff.mp hstale).1
    · exact h
  inFlight r h := by
    unfold afterRelease at h
    split at h
    · rename_i hstale
      rw [(isStale_iff.mp hstale).1]
      rfl
    · exact h

/-- An outcome that leaves no row claimed claims nothing. -/
theorem calm_change (id : Int) {change : OutboxRow → OutboxRow}
    (hchange : ∀ r, (change r).asAppended = r.asAppended)
    (hstatus : ∀ r, (change r).status ≠ .processing) :
    Calm fun r => if IsHit id r then change r else r where
  asAppended r := by
    split
    · exact hchange r
    · rfl
  processing r h := by
    split at h
    · exact absurd h (hstatus r)
    · exact h
  inFlight r h := by
    split at h
    · rename_i hhit
      rw [hhit.2]
      rfl
    · exact h

/-- Claimed rows are still the first of their keys where rows were removed. -/
theorem Heads.sublist (h : t.Heads) (hsub : List.Sublist t' t) : t'.Heads :=
  fun r hr q hq => h r (hsub.subset hr) q (hsub.subset hq)

/-- A row that is appended comes after all others. -/
theorem Heads.append (h : t.Heads) (habove : ∀ q ∈ t, q.id < r.id) (hstatus : r.status = .pending) :
    Heads (t ++ [r]) := by
  intro p hp q hq hprocessing
  rcases List.mem_append.mp hp with hp | hp
  · rcases List.mem_append.mp hq with hq | hq
    · exact h p hp q hq hprocessing
    · intro _ _ _
      rw [List.mem_singleton.mp hq]
      exact Int.le_of_lt (habove p hp)
  · rw [List.mem_singleton.mp hp, hstatus] at hprocessing
    cases hprocessing

/-- A row that is unfinished after a claim was so before. -/
theorem inFlight_of_claim {q : OutboxRow}
    (h : (if q ∈ t.chosen batch then claimed now q else q).status.inFlight = true) :
    q.status.inFlight = true := by
  by_cases hmem : q ∈ t.chosen batch
  · rw [status_of_isEligible (mem_of_mem_chosen hmem).2]
    rfl
  · rw [if_neg hmem] at h
    exact h

/-- A claim changes nothing in any row that may not change. -/
theorem asAppended_of_claim (t : Outbox) (batch : Int) (now : Instant) (q : OutboxRow) :
    (if q ∈ t.chosen batch then claimed now q else q).asAppended = q.asAppended := by
  split
  · exact asAppended_claimed now q
  · rfl

/-- A claim takes first rows only. -/
theorem Heads.claim (h : t.Heads) (ht : t.Distinct) : Heads (t.claim batch now).2 := by
  rw [claim_snd ht]
  intro r' hr' q' hq' hstatus hkey hsame hflight
  obtain ⟨r, hr, rfl⟩ := List.mem_map.mp hr'
  obtain ⟨q, hq, rfl⟩ := List.mem_map.mp hq'
  have hqq := asAppended_of_claim t batch now q
  rw [OutboxRow.id_eq_of_asAppended hqq]
  rw [OutboxRow.key_eq_of_asAppended hqq] at hsame
  by_cases hmem : r ∈ t.chosen batch
  · rw [if_pos hmem] at hkey hsame ⊢
    exact le_of_isEligible (r := r) (mem_of_mem_chosen hmem).2 hq hkey hsame
      (inFlight_of_claim hflight)
  · rw [if_neg hmem] at hstatus hkey hsame ⊢
    exact h r hr q hq hstatus hkey hsame (inFlight_of_claim hflight)

/-! ## What is unfinished -/

/-- Every row that is unfinished later was so before. -/
def Drains (t' t : Outbox) : Prop :=
  ∀ r' ∈ t', r'.status.inFlight = true →
    ∃ r ∈ t, r.status.inFlight = true ∧ r'.asAppended = r.asAppended

/-- A table that drains over two stretches of a run drains over both together. -/
theorem Drains.trans {t'' : Outbox} (h' : Drains t'' t') (h : Drains t' t) : Drains t'' t := by
  intro r'' hr'' hflight
  obtain ⟨r', hr', hflight', heq'⟩ := h' r'' hr'' hflight
  obtain ⟨r, hr, hflight, heq⟩ := h r' hr' hflight'
  exact ⟨r, hr, hflight, heq'.trans heq⟩

/-- Where rows were removed the unfinished ones were so before. -/
theorem drains_of_sublist (h : List.Sublist t' t) : Drains t' t :=
  fun r hr hflight => ⟨r, h.subset hr, hflight, rfl⟩

/-- A change that takes nothing up again leaves only rows unfinished that were so before. -/
theorem drains_map {g : OutboxRow → OutboxRow} (hg : Calm g) : Drains (t.map g) t := by
  intro r' hr' hflight
  obtain ⟨r, hr, rfl⟩ := List.mem_map.mp hr'
  exact ⟨r, hr, hg.inFlight r hflight, hg.asAppended r⟩

/-- A claim only takes rows that are unfinished. -/
theorem drains_claim (ht : t.Distinct) : Drains (t.claim batch now).2 t := by
  rw [claim_snd ht]
  intro r' hr' hflight
  obtain ⟨r, hr, rfl⟩ := List.mem_map.mp hr'
  exact ⟨r, hr, inFlight_of_claim hflight, asAppended_of_claim t batch now r⟩

end Outbox

end EventRelay
