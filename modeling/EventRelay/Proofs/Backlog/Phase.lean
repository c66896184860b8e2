import EventRelay.Proofs.Backlog.Run

/-!
# Where a consumer stands in its backlog

What a run tells of the entries of a consumer, and what it tells of the batch that is under way.
Both are kept by every step, whatever others do.

* `Account`: what becomes of the entries.
* `Ahead`: the entries that the consumer has set to work on and that are still pending stand at the
  front, so that a batch shows them again.
* `Fruitless`: a batch that has not moved the consumer forward so far.
* `Phase`: where the consumer stands; `phase_next`: how it goes on with a batch.
* `Step.holds`, `Run.holds`: a step and a run keep what holds.
-/

namespace EventRelay

namespace Backlog

open Consumer

variable {c : ConsumerConfig} {partition : Int} {s s' : Loop} {batch : Nat}
  {initial own own' todo shown : List String} {log events : List Event} {entry x : String}

/-! ## The front of a list -/

/-- What stands at the front of a list does so when others are gone. -/
theorem mem_take_of_sublist (hsub : own'.Sublist own) (hnodup : own.Nodup) (hx : x ∈ own')
    (hfront : x ∈ own.take batch) : x ∈ own'.take batch := by
  induction hsub generalizing batch with
  | slnil => exact hfront
  | cons y hsub ih =>
    obtain ⟨hy, hnodup⟩ := List.nodup_cons.mp hnodup
    cases batch with
    | zero => exact absurd hfront List.not_mem_nil
    | succ n =>
      have hne : x ≠ y := fun h => hy (hsub.subset (h ▸ hx))
      have hlater := (List.mem_cons.mp hfront).resolve_left hne
      exact List.take_subset_take_left _ (Nat.le_succ n) (ih hnodup hx hlater)
  | cons_cons y hsub ih =>
    obtain ⟨hy, hnodup⟩ := List.nodup_cons.mp hnodup
    cases batch with
    | zero => exact absurd hfront List.not_mem_nil
    | succ n =>
      rcases List.mem_cons.mp hx with rfl | hx
      · exact List.mem_cons_self
      · have hne : x ≠ y := fun h => hy (hsub.subset (h ▸ hx))
        have hlater := (List.mem_cons.mp hfront).resolve_left hne
        exact List.mem_cons_of_mem _ (ih hnodup hx hlater)

/-! ## What becomes of the entries -/

/-- What the run tells of the entries that were pending in the beginning, and what is still
pending. -/
structure Account (initial : List String) (log : List Event) (own : List String) : Prop where
  /-- No other entry is pending. -/
  sublist : own.Sublist initial
  /-- The consumer has set to work on an entry that is not pending any more, unless others took it
  away. -/
  listed : ∀ entry ∈ initial, .dispatched entry ∈ log ∨ .gone entry ∈ log ∨ entry ∈ own
  /-- It has set to work on an entry whose callback raised. -/
  tried : ∀ entry, .raised entry ∈ log → .dispatched entry ∈ log
  /-- What is acknowledged is not pending any more. -/
  cleared : ∀ entry, .acknowledged entry ∈ log → entry ∉ own

/-- The account stays right as something happens, if nothing gets lost by it. -/
theorem Account.grow (h : Account initial log own) (hsub : own'.Sublist own)
    (hlost : ∀ x ∈ own, x ∈ own' ∨ .dispatched x ∈ log ++ events ∨ .gone x ∈ log ++ events)
    (htried : ∀ x, .raised x ∈ events → .dispatched x ∈ log)
    (hcleared : ∀ x, .acknowledged x ∈ events → x ∉ own') :
    Account initial (log ++ events) own' where
  sublist := hsub.trans h.sublist
  listed x hx := by
    rcases h.listed x hx with hdispatched | hgone | hown
    · exact .inl (List.mem_append_left _ hdispatched)
    · exact .inr (.inl (List.mem_append_left _ hgone))
    · rcases hlost x hown with hown | hdispatched | hgone
      · exact .inr (.inr hown)
      · exact .inl hdispatched
      · exact .inr (.inl hgone)
  tried x hx := by
    refine List.mem_append_left _ ?_
    rcases List.mem_append.mp hx with hx | hx
    · exact h.tried x hx
    · exact htried x hx
  cleared x hx := by
    rcases List.mem_append.mp hx with hx | hx
    · exact fun hown => h.cleared x hx (hsub.subset hown)
    · exact hcleared x hx

/-- The consumer sets to work on an entry. -/
theorem Account.start (h : Account initial log own) (entries : List Handed) :
    Account initial (log ++ started entries) own :=
  h.grow (List.Sublist.refl _) (fun _ hx => .inl hx)
    (fun x hx => by simp at hx) fun x hx => by simp at hx

/-- A callback returns. -/
theorem Account.settle (h : Account initial log own) (entry : String) :
    Account initial (log ++ [.returned entry]) own := by
  refine h.grow (List.Sublist.refl _) (fun _ hx => .inl hx) (fun x hx => ?_) fun x hx => ?_
  · cases List.mem_singleton.mp hx
  · cases List.mem_singleton.mp hx

/-- A callback raises. -/
theorem Account.raise (h : Account initial log own) (hdispatched : .dispatched entry ∈ log) :
    Account initial (log ++ [.raised entry]) own := by
  refine h.grow (List.Sublist.refl _) (fun _ hx => .inl hx) (fun x hx => ?_) fun x hx => ?_
  · cases List.mem_singleton.mp hx
    exact hdispatched
  · cases List.mem_singleton.mp hx

/-- An entry is acknowledged. -/
theorem Account.acknowledge (h : Account initial log own) (hdispatched : .dispatched entry ∈ log) :
    Account initial (log ++ [.acknowledged entry]) (own.filter (· ≠ entry)) := by
  refine h.grow List.filter_sublist (fun x hx => ?_) (fun x hx => ?_) fun x hx => ?_
  · by_cases heq : x = entry
    · exact .inr (.inl (List.mem_append_left _ (heq ▸ hdispatched)))
    · exact .inl (List.mem_filter.mpr ⟨hx, decide_eq_true heq⟩)
  · cases List.mem_singleton.mp hx
  · cases List.mem_singleton.mp hx
    exact fun hmem => of_decide_eq_true (List.mem_filter.mp hmem).2 rfl

/-- Others take entries away. -/
theorem Account.lose (h : Account initial log own) (hsub : own'.Sublist own) :
    Account initial (log ++ losses own own') own' := by
  refine h.grow hsub (fun x hx => ?_) (fun x hx => by simp at hx) fun x hx => by simp at hx
  by_cases hown : x ∈ own'
  · exact .inl hown
  · exact .inr (.inr (List.mem_append_right _ (mem_losses.mpr ⟨x, ⟨hx, hown⟩, rfl⟩)))

/-! ## Where the consumer stands -/

/-- The entries that the consumer has set to work on, or owes to a batch, stand at the front as long
as they are pending. -/
def Ahead (batch : Nat) (log : List Event) (own todo : List String) : Prop :=
  ∀ x ∈ own, .dispatched x ∈ log ∨ x ∈ todo → x ∈ own.take batch

/-- The next entry of a batch is set to work on. -/
theorem Ahead.cons (h : Ahead batch log own (x :: todo)) :
    Ahead batch (log ++ [.dispatched x]) own todo := by
  intro y hy hseen
  refine h y hy ?_
  rcases hseen with hdispatched | htodo
  · rcases List.mem_append.mp hdispatched with hearlier | hnow
    · exact .inl hearlier
    · cases List.mem_singleton.mp hnow
      exact .inr List.mem_cons_self
  · exact .inr (List.mem_cons_of_mem _ htodo)

/-- What stands at the front does so as other things happen. -/
theorem Ahead.append (h : Ahead batch log own todo) (hnone : ∀ x, .dispatched x ∉ events) :
    Ahead batch (log ++ events) own todo := by
  intro x hx hseen
  refine h x hx (hseen.imp_left fun hlog => ?_)
  exact (List.mem_append.mp hlog).resolve_right (hnone x)

/-- What stands at the front does so when others are gone. -/
theorem Ahead.sublist (h : Ahead batch log own todo) (hnodup : own.Nodup)
    (hsub : own'.Sublist own) : Ahead batch log own' todo :=
  fun x hx hseen => mem_take_of_sublist hsub hnodup hx (h x (hsub.subset hx) hseen)

/-- A batch that has not moved the consumer forward so far, with what is left of it. -/
structure Fruitless (batch : Nat) (initial : List String) (log : List Event)
    (own todo shown : List String) : Prop where
  /-- It was pending in the beginning. -/
  sublist : shown.Sublist initial
  /-- A batch that is not full shows everything that is pending. -/
  all : shown.length < batch → own ⊆ shown
  /-- A batch shows what stands at the front, unless others took something away. -/
  front : (∀ x, .gone x ∉ log) → own.take batch ⊆ shown
  /-- All callbacks have raised so far. -/
  raised : ∀ x ∈ shown, .raised x ∈ log ∨ x ∈ todo

/-- A batch that was just read. -/
theorem fruitless_take (batch : Nat) (log : List Event) (h : own.Sublist initial) :
    Fruitless batch initial log own (own.take batch) (own.take batch) where
  sublist := (List.take_sublist _ _).trans h
  all hshort := by
    rw [List.length_take] at hshort
    rw [List.take_of_length_le (by omega)]
    exact List.Subset.refl _
  front _ := List.Subset.refl _
  raised _ hx := .inr hx

/-- A batch stays fruitless as things happen that are nothing to it. -/
theorem Fruitless.append (h : Fruitless batch initial log own todo shown) (events : List Event) :
    Fruitless batch initial (log ++ events) own todo shown where
  sublist := h.sublist
  all := h.all
  front hnone := h.front fun x hx => hnone x (List.mem_append_left _ hx)
  raised x hx := (h.raised x hx).imp_left (List.mem_append_left _)

/-- Another callback raises. -/
theorem Fruitless.raise (h : Fruitless batch initial log own (entry :: todo) shown) :
    Fruitless batch initial (log ++ [.raised entry]) own todo shown where
  sublist := h.sublist
  all := h.all
  front := (h.append _).front
  raised x hx := by
    rcases h.raised x hx with hearlier | htodo
    · exact .inl (List.mem_append_left _ hearlier)
    · rcases List.mem_cons.mp htodo with rfl | hrest
      · exact .inl (List.mem_append_right _ (List.mem_singleton_self _))
      · exact .inr hrest

/-- A batch stays fruitless when others take entries away. -/
theorem Fruitless.lose (h : Fruitless batch initial log own todo shown) (hnodup : own.Nodup)
    (hsub : own'.Sublist own) :
    Fruitless batch initial (log ++ losses own own') own' todo shown where
  sublist := h.sublist
  all hshort := List.Subset.trans hsub.subset (h.all hshort)
  front hnone := by
    have hsame : own' = own :=
      eq_of_losses hsub hnodup fun x hx => hnone x (List.mem_append_right _ hx)
    rw [hsame]
    exact h.front fun x hx => hnone x (List.mem_append_left _ hx)
  raised := (h.append _).raised

/-- Where a consumer stands that works on its backlog, and what it asks for. -/
inductive Phase (batch : Nat) (initial : List String) (log : List Event) (own : List String) :
    ConsumerState → ConsumerRequest → Prop where
  /-- It reads a batch. -/
  | reading (hahead : Ahead batch log own []) :
      Phase batch initial log own (.fetching .backlog) .readOwn
  /-- A callback has an entry. -/
  | handling {d : Delivery} {rest : List Handed} {acked : Nat}
      (hdispatched : .dispatched d.offset ∈ log) (hahead : Ahead batch log own (rest.map (·.1)))
      (hfruitless : acked = 0 →
        ∃ shown, Fruitless batch initial log own (d.offset :: rest.map (·.1)) shown) :
      Phase batch initial log own (.handling .backlog d.offset rest acked) (.handle d)
  /-- It acknowledges an entry. -/
  | acking {entry : String} {rest : List Handed} {acked : Nat}
      (hdispatched : .dispatched entry ∈ log) (hahead : Ahead batch log own (rest.map (·.1))) :
      Phase batch initial log own (.acking .backlog rest acked) (.acknowledge entry)
  /-- It turns to the entries of others: no callback of the last batch has returned. -/
  | turning (hahead : Ahead batch log own [])
      (hfruitless : ∃ shown, Fruitless batch initial log own [] shown) :
      Phase batch initial log own (.fetching .idle) .takeOver

/-- The consumer goes on with a batch. -/
theorem phase_next {entries : List Handed} {acked : Nat}
    (hahead : Ahead batch log own (entries.map (·.1)))
    (hfruitless : acked = 0 →
      ∃ shown, Fruitless batch initial log own (entries.map (·.1)) shown) :
    Phase batch initial (log ++ started entries) own
      (next c partition .endless .backlog entries acked).state
      (next c partition .endless .backlog entries acked).request := by
  cases entries with
  | nil =>
    rw [show started [] = [] from rfl, List.append_nil]
    unfold next afterBatch
    dsimp only
    by_cases hacked : 0 < acked
    · rw [if_pos hacked]
      exact .reading hahead
    · rw [if_neg hacked]
      exact .turning hahead (hfruitless (by omega))
  | cons y rest =>
    obtain ⟨id, fields⟩ := y
    have hdispatched : .dispatched id ∈ log ++ started ((id, fields) :: rest) :=
      List.mem_append_right _ (List.mem_singleton_self _)
    rcases fields with _ | _ | ⟨f, fs⟩
    · exact .acking hdispatched hahead.cons
    · exact .acking hdispatched hahead.cons
    · refine .handling (d := .ofFields c.topic partition id (f :: fs)) hdispatched hahead.cons
        fun hacked => ?_
      obtain ⟨shown, hshown⟩ := hfruitless hacked
      exact ⟨shown, hshown.append _⟩

/-- Others take entries away. -/
theorem Phase.lose {state : ConsumerState} {request : ConsumerRequest}
    (h : Phase batch initial log own state request) (hnodup : own.Nodup)
    (hsub : own'.Sublist own) :
    Phase batch initial (log ++ losses own own') own' state request := by
  have hnone : ∀ x, .dispatched x ∉ losses own own' := fun x => by simp
  cases h with
  | reading hahead => exact .reading ((hahead.sublist hnodup hsub).append hnone)
  | handling hdispatched hahead hfruitless =>
    refine .handling (List.mem_append_left _ hdispatched)
      ((hahead.sublist hnodup hsub).append hnone) fun hacked => ?_
    obtain ⟨shown, hshown⟩ := hfruitless hacked
    exact ⟨shown, hshown.lose hnodup hsub⟩
  | acking hdispatched hahead =>
    exact .acking (List.mem_append_left _ hdispatched)
      ((hahead.sublist hnodup hsub).append hnone)
  | turning hahead hfruitless =>
    obtain ⟨shown, hshown⟩ := hfruitless
    exact .turning ((hahead.sublist hnodup hsub).append hnone) ⟨shown, hshown.lose hnodup hsub⟩

/-! ## What every state of a run has -/

/-- Every entry whose callback returned is acknowledged. -/
def Complete (log : List Event) : Prop := ∀ x, .returned x ∈ log → .acknowledged x ∈ log

/-- Every entry whose callback returned is acknowledged, or the consumer asks for just that. -/
def Settled (log : List Event) (request : ConsumerRequest) : Prop :=
  ∀ x, .returned x ∈ log → .acknowledged x ∈ log ∨ request = .acknowledge x

/-- What holds in every state of a run. -/
structure Holds (c : ConsumerConfig) (partition : Int) (initial : List String) (log : List Event)
    (s : Loop) : Prop where
  /-- What becomes of the entries. -/
  account : Account initial log (owned c partition s)
  /-- What becomes of those whose callbacks return. -/
  settled : Settled log s.move.request
  /-- Where the consumer stands. -/
  phase : Phase c.batch.toNat initial log (owned c partition s) s.move.state s.move.request

section settled

variable {request : ConsumerRequest}

/-- No acknowledgement is missing where no callback returned since. -/
theorem Complete.append (h : Complete log) (hnone : ∀ x, .returned x ∉ events) :
    Complete (log ++ events) :=
  fun x hx => List.mem_append_left _ (h x ((List.mem_append.mp hx).resolve_right (hnone x)))

/-- Where none is missing none has to be asked for. -/
theorem Complete.settled (h : Complete log) : Settled log request :=
  fun x hx => .inl (h x hx)

/-- Where the consumer asks for something else, no acknowledgement is missing. -/
theorem Settled.complete (h : Settled log request) (hrequest : ∀ x, request ≠ .acknowledge x) :
    Complete log :=
  fun x hx => (h x hx).resolve_right (hrequest x)

/-- At most one is missing where no callback returned since. -/
theorem Settled.append (h : Settled log request) (hnone : ∀ x, .returned x ∉ events) :
    Settled (log ++ events) request :=
  fun x hx => (h x ((List.mem_append.mp hx).resolve_right (hnone x))).imp_left
    (List.mem_append_left _)

/-- A callback returns, and the consumer asks for the acknowledgement. -/
theorem Complete.settle (h : Complete log) (entry : String) :
    Settled (log ++ [.returned entry]) (.acknowledge entry) := by
  intro x hx
  rcases List.mem_append.mp hx with hearlier | hnow
  · exact .inl (List.mem_append_left _ (h x hearlier))
  · cases List.mem_singleton.mp hnow
    exact .inr rfl

/-- The acknowledgement that was missing is there. -/
theorem Settled.acknowledge (h : Settled log (.acknowledge entry)) :
    Complete (log ++ [.acknowledged entry]) := by
  intro x hx
  rcases List.mem_append.mp hx with hearlier | hnow
  · rcases h x hearlier with hacknowledged | hasked
    · exact List.mem_append_left _ hacknowledged
    · cases hasked
      exact List.mem_append_right _ (List.mem_singleton_self _)
  · cases List.mem_singleton.mp hnow

end settled

namespace Phase

variable {state : ConsumerState}

/-- A consumer that reads owes nothing to a batch. -/
theorem of_readOwn (h : Phase batch initial log own state .readOwn) :
    state = .fetching .backlog ∧ Ahead batch log own [] := by
  cases h with
  | reading hahead => exact ⟨rfl, hahead⟩

/-- A consumer that asks for a callback has set to work on the entry. -/
theorem of_handle {d : Delivery} (h : Phase batch initial log own state (.handle d)) :
    ∃ rest acked, state = .handling .backlog d.offset rest acked ∧ .dispatched d.offset ∈ log ∧
      Ahead batch log own (rest.map (·.1)) ∧
      (acked = 0 →
        ∃ shown, Fruitless batch initial log own (d.offset :: rest.map (·.1)) shown) := by
  cases h with
  | handling hdispatched hahead hfruitless => exact ⟨_, _, rfl, hdispatched, hahead, hfruitless⟩

/-- A consumer that acknowledges an entry has set to work on it. -/
theorem of_acknowledge (h : Phase batch initial log own state (.acknowledge entry)) :
    ∃ rest acked, state = .acking .backlog rest acked ∧ .dispatched entry ∈ log ∧
      Ahead batch log own (rest.map (·.1)) := by
  cases h with
  | acking hdispatched hahead => exact ⟨_, _, rfl, hdispatched, hahead⟩

/-- When a consumer turns to others its last batch was fruitless. -/
theorem of_takeOver (h : Phase batch initial log own state .takeOver) :
    Ahead batch log own [] ∧ ∃ shown, Fruitless batch initial log own [] shown := by
  cases h with
  | turning hahead hfruitless => exact ⟨hahead, hfruitless⟩

end Phase

/-- The consumer goes on with a batch. -/
theorem holds_next (entries : List Handed) (acked : Nat)
    (haccount : Account initial log (owned c partition s))
    (hcomplete : Complete log)
    (hahead : Ahead c.batch.toNat log (owned c partition s) (entries.map (·.1)))
    (hfruitless : acked = 0 → ∃ shown,
      Fruitless c.batch.toNat initial log (owned c partition s) (entries.map (·.1)) shown)
    (hstate : s.move.state = (next c partition .endless .backlog entries acked).state)
    (hrequest : s.move.request = (next c partition .endless .backlog entries acked).request) :
    Holds c partition initial (log ++ started entries) s where
  account := haccount.start entries
  settled := (hcomplete.append (by simp)).settled
  phase := by
    rw [hstate, hrequest]
    exact phase_next hahead hfruitless

/-- In the beginning a consumer has its backlog before it. -/
theorem holds_start (hmove : s.move = Consumer.start) :
    Holds c partition (owned c partition s) [] s where
  account := {
    sublist := List.Sublist.refl _
    listed := fun _ hx => .inr (.inr hx)
    tried := fun _ hx => absurd hx List.not_mem_nil
    cleared := fun _ hx => absurd hx List.not_mem_nil }
  settled _ hx := absurd hx List.not_mem_nil
  phase := by
    rw [hmove]
    exact .reading fun _ _ hseen => (hseen.elim List.not_mem_nil List.not_mem_nil).elim

section kept

variable (h : Holds c partition initial log s)

include h

/-- What holds still does when entries are read. -/
theorem Holds.read {entries : List Handed} (hrequest : s.move.request = .readOwn)
    (hread : s.streams.readOwn (c.stream partition) c.group c.name c.batch.toNat = .ok entries) :
    Holds c partition initial (log ++ started (Loop.due s.move.state (.batch entries)))
      (s.respond c partition (.batch entries)) := by
  obtain ⟨haccount, hsettled, hphase⟩ := h
  rw [hrequest] at hsettled hphase
  obtain ⟨hstate, hahead⟩ := hphase.of_readOwn
  have hshown := readOwn_owned hread
  unfold Loop.respond
  rw [hstate]
  refine holds_next entries 0 haccount (hsettled.complete nofun) ?_ ?_ rfl rfl
  · intro x hx hseen
    rcases hseen with hdispatched | hmem
    · exact hahead x hx (.inl hdispatched)
    · exact hshown ▸ hmem
  · exact fun _ => ⟨_, hshown ▸ fruitless_take _ _ haccount.sublist⟩

/-- What holds still does when a callback returns. -/
theorem Holds.settle {d : Delivery} (hrequest : s.move.request = .handle d) :
    Holds c partition initial (log ++ [.returned d.offset]) (s.respond c partition .done) := by
  obtain ⟨haccount, hsettled, hphase⟩ := h
  rw [hrequest] at hsettled hphase
  obtain ⟨rest, acked, hstate, hdispatched, hahead, -⟩ := hphase.of_handle
  unfold Loop.respond
  rw [hstate]
  constructor
  case account => exact haccount.settle d.offset
  case settled => exact (hsettled.complete nofun).settle d.offset
  case phase => exact .acking (List.mem_append_left _ hdispatched) (hahead.append (by simp))

/-- What holds still does when a callback raises. -/
theorem Holds.raise {d : Delivery} (hrequest : s.move.request = .handle d) {e : Failure}
    (he : e.isCancellation = false) :
    Holds c partition initial
      (log ++ ([.raised d.offset] ++ started (Loop.due s.move.state (.failed e))))
      (s.respond c partition (.failed e)) := by
  obtain ⟨haccount, hsettled, hphase⟩ := h
  rw [hrequest] at hsettled hphase
  obtain ⟨rest, acked, hstate, hdispatched, hahead, hfruitless⟩ := hphase.of_handle
  have hraised : ¬ e.isCancellation = true := Bool.eq_false_iff.mp he
  unfold Loop.respond
  rw [hstate, ← List.append_assoc]
  refine holds_next rest acked (haccount.raise hdispatched)
    ((hsettled.complete nofun).append (by simp)) (hahead.append (by simp)) (fun hacked => ?_) ?_ ?_
  · obtain ⟨shown, hshown⟩ := hfruitless hacked
    exact ⟨shown, hshown.raise⟩
  · simp only [advance, if_neg hraised]
  · simp only [advance, if_neg hraised]

/-- What holds still does when an entry is acknowledged. -/
theorem Holds.acknowledge (hnodup : initial.Nodup)
    (hrequest : s.move.request = .acknowledge entry) :
    Holds c partition initial
      (log ++ ([.acknowledged entry] ++ started (Loop.due s.move.state .done)))
      { s.respond c partition .done with
        streams := s.streams.acknowledge (c.stream partition) c.group entry } := by
  obtain ⟨haccount, hsettled, hphase⟩ := h
  have hown := hnodup.sublist haccount.sublist
  rw [hrequest] at hsettled hphase
  obtain ⟨rest, acked, hstate, hdispatched, hahead⟩ := hphase.of_acknowledge
  unfold Loop.respond
  rw [hstate, ← List.append_assoc]
  refine holds_next rest (acked + 1) ?_ hsettled.acknowledge ?_ (fun hacked => by omega) rfl rfl
  · rw [owned_acknowledge]
    exact haccount.acknowledge hdispatched
  · rw [owned_acknowledge]
    exact (hahead.sublist hown List.filter_sublist).append (by simp)

/-- What holds still does when others take entries away. -/
theorem Holds.lose (hnodup : initial.Nodup) {streams : Streams}
    (hsub : (owned c partition { s with streams }).Sublist (owned c partition s)) :
    Holds c partition initial
      (log ++ losses (owned c partition s) (owned c partition { s with streams }))
      { s with streams } where
  account := h.account.lose hsub
  settled := h.settled.append (by simp)
  phase := h.phase.lose (hnodup.sublist h.account.sublist) hsub

end kept

/-- Every step keeps what holds. -/
theorem Step.holds (hstep : Step c partition s events s') (hnodup : initial.Nodup)
    (h : Holds c partition initial log s) : Holds c partition initial (log ++ events) s' := by
  cases hstep with
  | pass now =>
    rw [List.append_nil]
    exact ⟨h.account, h.settled, h.phase⟩
  | read hrequest hread => exact h.read hrequest hread
  | returned hrequest => exact h.settle hrequest
  | raised hrequest he => exact h.raise hrequest he
  | acknowledge hrequest => exact h.acknowledge hnodup hrequest
  | elsewhere hsub => exact h.lose hnodup hsub

/-- A run keeps what holds. -/
theorem Run.holds (hrun : Run c partition s events s') (hnodup : initial.Nodup)
    (h : Holds c partition initial log s) : Holds c partition initial (log ++ events) s' := by
  induction hrun generalizing log with
  | done s =>
    rw [List.append_nil]
    exact h
  | step hstep _ ih =>
    rw [← List.append_assoc]
    exact ih (hstep.holds hnodup h)

end Backlog

end EventRelay
