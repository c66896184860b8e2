import EventRelay.Proofs.Publisher.Play
import EventRelay.Proofs.Publisher.Rounds

/-!
# A tick alone

A tick that is the only one, while nobody else is about and the database does not fail: its sends
end, time passes until the next of them does, and when all are over it records their outcomes one by
one.

* `Alone`: one step of it, with the number of rows that it publishes by the step; `Course`: any
  number of steps.
* `aside_of_alone`: its steps are steps of publishers.
* `nextDue_eq_none_iff`: no send is under way exactly if all are over.
* `exists_landed`, `exists_recorded`: it can wait until its sends are over, and then it can record
  what came of them.
-/

namespace EventRelay

namespace Publisher

open Relay

variable {b : Broker} {s s' u : Relay} {t : Tick} {n m : Nat}

/-! ## Steps -/

/-- A step of the only tick, and how many rows it publishes. -/
inductive Alone (b : Broker) : Relay → Nat → Relay → Prop where
  /-- A send is over. -/
  | land (s : Relay) {t : Tick} (ht : s.ticks = [t]) {fs gs : List Flight} {row : OutboxRow}
      {due : Instant} {ending : Ending} (hf : t.flights = fs ++ .airborne row due ending :: gs)
      (hdue : due.isDue s.now) :
      Alone b s 0 ((s.deliverIf b t row ending).withTicks
        [{ t with
          flights := fs ++ .landed row (finishSend b s.now row ending s.streams).1 :: gs }])
  /-- The broker takes a message in, but the sender does not get to know. -/
  | slip (s : Relay) {t : Tick} (ht : s.ticks = [t]) {row : OutboxRow} {due : Instant}
      {ending : Ending} (hf : .airborne row due ending ∈ t.flights)
      (htime : 0 < t.cfg.sendTimeout) {partition : Int}
      (hp : partitionFor row.routingKey b.partitions = .ok partition) :
      Alone b s 0 (s.deliver b t row partition)
  /-- All sends are over, and the next outcome is recorded; the transaction goes through. -/
  | record (s : Relay) {t : Tick} (ht : s.ticks = [t]) (hover : nextDue? t.flights = none)
      {row : OutboxRow} {result : Except Failure Receipt} {rest : List Flight}
      (hf : t.flights = .landed row result :: rest) {script : DbScript}
      (hscript : FairScript script) {published : Bool}
      (hok : (s.transact script (reconcile t.cfg row result)).1 = .ok published) :
      Alone b s published.toNat
        ((s.transact script (reconcile t.cfg row result)).2.withTicks [{ t with flights := rest }])
  /-- Time passes. -/
  | pass (s : Relay) {t : Tick} (ht : s.ticks = [t]) {later : Instant} (hle : s.now ≤ later)
      (hwait : t.waitsUntil later) : Alone b s 0 (s.waitUntil later)

/-- Some steps of the only tick, and how many rows it publishes by them. -/
inductive Course (b : Broker) (s : Relay) : Nat → Relay → Prop where
  | refl : Course b s 0 s
  | tail {n m : Nat} {u v : Relay} (h : Course b s n u) (hstep : Alone b u m v) :
      Course b s (n + m) v

/-- A step is a course. -/
theorem Course.single (h : Alone b s n s') : Course b s n s' :=
  Nat.zero_add n ▸ Course.refl.tail h

/-- A course goes on with another one, and the rows that they publish add up. -/
theorem Course.trans (h : Course b s n u) (h' : Course b u m s') : Course b s (n + m) s' := by
  induction h' with
  | refl => exact h
  | tail _ hstep ih => exact Nat.add_assoc n _ _ ▸ ih.tail hstep

/-- A step of the only tick appends nothing and claims no batch. -/
theorem aside_of_alone {pubs : Set PublisherConfig} (h : Alone b s n s') : Aside pubs b s s' := by
  cases h with
  | @land t ht fs gs row due ending hf hdue =>
    have honly : s.ticks = [] ++ t :: [] := ht
    have hstep : Step pubs b s _ := .land s honly hf hdue
    cases ending <;> exact ⟨hstep, rfl, rfl⟩
  | slip ht hf htime hp => exact ⟨.slip s (ht ▸ List.mem_cons_self) hf htime hp, rfl, rfl⟩
  | @record t ht hover row result rest hf script hscript published hok =>
    have honly : s.ticks = [] ++ t :: [] := ht
    have hstep : Step pubs b s _ := .record s honly hover hf hscript
    simp only [hok] at hstep
    exact ⟨hstep, rfl, rfl⟩
  | @pass t ht later hle hwait =>
    refine ⟨.pass s hle fun t' ht' => ?_, rfl, rfl⟩
    rw [ht] at ht'
    rw [List.mem_singleton.mp ht']
    exact hwait

/-- So does a course of them. -/
theorem asides_of_course {pubs : Set PublisherConfig} (h : Course b s n s') :
    Relation.ReflTransGen (Aside pubs b) s s' := by
  induction h with
  | refl => exact .refl
  | tail _ hstep ih => exact ih.tail (aside_of_alone hstep)

/-! ## Sends that are over -/

/-- Whether a send is over. -/
def Flight.isLanded : Flight → Bool
  | .airborne _ _ _ => false
  | .landed _ _ => true

/-- Something is due where a send is under way. -/
theorem isSome_nextDue (flights : List Flight) :
    (nextDue? flights).isSome = flights.any fun f => !f.isLanded := by
  unfold nextDue?
  change _ = ((none : Option Instant).isSome || flights.any fun f => !f.isLanded)
  -- the instant found so far is arbitrary
  generalize (none : Option Instant) = best
  induction flights generalizing best with
  | nil => exact (Bool.or_false _).symm
  | cons f flights ih =>
    rw [List.foldl_cons, ih, List.any_cons]
    cases f with
    | landed row result => rfl
    | airborne row due ending => cases best <;> rfl

/-- Nothing is due where all sends are over. -/
theorem nextDue_eq_none_iff {flights : List Flight} :
    nextDue? flights = none ↔ ∀ f ∈ flights, f.isLanded = true := by
  rw [← Option.not_isSome_iff_eq_none, isSome_nextDue, List.any_eq_true]
  simp

/-- The sends under way. -/
def underWay (flights : List Flight) : Nat := flights.countP fun f => !f.isLanded

section waits

variable (b)

/-- Time passes until a send is due, if it is not due yet. -/
theorem exists_due (hticks : s.ticks = [t]) {due last : Instant}
    (hnext : nextDue? t.flights = some due) (hnow : s.now ≤ last) (hdue : due ≤ last) :
    ∃ later, Course b s 0 (s.waitUntil later) ∧ due.isDue later = true ∧ s.now ≤ later ∧
      later ≤ last := by
  have hpositive : 0 < Clock.resolution := by decide
  by_cases hearly : due ≤ s.now
  · refine ⟨s.now, .refl, ?_, Int.le_refl _, hnow⟩
    unfold Instant.isDue
    rw [decide_eq_true_eq]
    unfold Instant Span at *
    omega
  · have hle := Int.le_of_lt (Int.not_le.mp hearly)
    refine ⟨due, .single (.pass s hticks hle ⟨due, hnext, Int.le_refl _⟩), ?_, hle, hdue⟩
    unfold Instant.isDue
    rw [decide_eq_true_eq]
    unfold Instant Span at *
    omega

/-- A tick waits until its sends are over. -/
theorem exists_landed {last : Instant} (n : Nat) (hticks : s.ticks = [t])
    (hcount : underWay t.flights = n) (hnow : s.now ≤ last)
    (hdues : ∀ row due ending, .airborne row due ending ∈ t.flights → due ≤ last) :
    ∃ u t', Course b s 0 u ∧ u.ticks = [t'] ∧ nextDue? t'.flights = none ∧ t'.rows = t.rows ∧
      t'.cfg = t.cfg ∧ u.table = s.table ∧ s.now ≤ u.now ∧ u.now ≤ last := by
  induction n generalizing s t with
  | zero =>
    refine ⟨s, t, .refl, hticks, nextDue_eq_none_iff.mpr fun f hf => ?_, rfl, rfl, rfl,
      Int.le_refl _, hnow⟩
    have := List.countP_eq_zero.mp hcount f hf
    rw [Bool.not_eq_true, Bool.not_eq_false'] at this
    exact this
  | succ n ih =>
    rcases hnext : nextDue? t.flights with _ | due
    · exact ⟨s, t, .refl, hticks, hnext, rfl, rfl, rfl, Int.le_refl _, hnow⟩
    obtain ⟨row, ending, hf⟩ := airborne_of_nextDue hnext
    obtain ⟨later, hwait, hdue, hle, hlast⟩ := exists_due b hticks hnext hnow
      (hdues row due ending hf)
    obtain ⟨fs, gs, hsplit⟩ := List.append_of_mem hf
    let landed : Tick := { t with
      flights := fs ++ .landed row (finishSend b later row ending s.streams).1 :: gs }
    let v : Relay := ((s.waitUntil later).deliverIf b t row ending).withTicks [landed]
    have hland : Alone b (s.waitUntil later) 0 v := by
      have honly : (s.waitUntil later).ticks = [t] := hticks
      exact .land (s.waitUntil later) honly hsplit hdue
    have hkept : v.table = s.table ∧ v.now = later := by
      cases ending <;> exact ⟨rfl, rfl⟩
    have hrows : landed.rows = t.rows := Tick.rows_land hsplit _
    have hfewer : underWay landed.flights = n := by
      unfold underWay at hcount ⊢
      rw [hsplit, List.countP_append, List.countP_cons] at hcount
      rw [List.countP_append, List.countP_cons]
      simp only [Flight.isLanded] at hcount ⊢
      simp only [Bool.not_false, if_true, Bool.not_true, Bool.false_eq_true, if_false] at hcount ⊢
      omega
    obtain ⟨u, t', hsteps, hu, hnone, hrows', hcfg, htable, hle', hlast'⟩ :=
      ih (s := v) (t := landed) rfl hfewer (hkept.2 ▸ hlast) fun row' due' ending' hf' =>
        hdues row' due' ending' ((trails_land t hsplit _).airborne hf')
    rw [hkept.2] at hle'
    exact ⟨u, t', (hwait.tail hland).trans hsteps, hu, hnone, hrows'.trans hrows, hcfg,
      htable.trans hkept.1, Int.le_trans hle hle', hlast'⟩

/-! ## Outcomes that can be recorded -/

/-- The database takes the identifier of a row and its next number of attempts. -/
def Recordable (row : OutboxRow) : Prop :=
  Scalar.fitsWord row.id = true ∧ Scalar.fitsWord (row.retryCount + 1) = true

/-- A tick whose sends are over records their outcomes, and takes no time for it. -/
theorem exists_recorded {flights : List Flight} (hticks : s.ticks = [t])
    (hflights : t.flights = flights) (hover : nextDue? flights = none)
    (hrows : ∀ row ∈ t.rows, Recordable row) :
    ∃ n u, Course b s n u ∧ u.ticks = [{ t with flights := [] }] ∧ u.now = s.now := by
  induction flights generalizing s t with
  | nil => exact ⟨0, s, .refl, by rw [hticks, ← hflights], rfl⟩
  | cons f rest ih =>
    have hlanded := nextDue_eq_none_iff.mp hover
    cases f with
    | airborne row due ending =>
      have := hlanded _ List.mem_cons_self
      cases this
    | landed row result =>
      obtain ⟨hid, hretry⟩ := hrows row (Tick.mem_rows_of_landed hflights)
      obtain ⟨published, hok⟩ := ok_reconcile t.cfg { s.desk with script := .none } rfl result
        hid hretry
      let v : Relay := (s.transact .none (reconcile t.cfg row result)).2.withTicks
        [{ t with flights := rest }]
      have hrecord : Alone b s published.toNat v :=
        .record s hticks (hflights ▸ hover) hflights fairScript_none hok
      obtain ⟨n, u, hsteps, hu, hnow⟩ := ih (s := v) (t := { t with flights := rest }) rfl rfl
        (nextDue_eq_none_iff.mpr fun f hf => hlanded f (List.mem_cons_of_mem _ hf))
        fun row' hrow' => hrows row' ((trails_record t hflights).rows.subset hrow')
      exact ⟨_, u, (Course.single hrecord).trans hsteps, hu, hnow⟩

end waits

end Publisher

end EventRelay
