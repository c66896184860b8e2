import EventRelay.Proofs.Handler.Calls
import EventRelay.Proofs.Number.Digits

/-!
# Ends of calls

What a step among calls of the handler does to the calls that have ended and to the ledger, and what
the key of a delivery says.

* `Delivery.eq_of_eventKey`: within a topic the key of a delivery is its place.
* `ending_of_step`: at most one call ends in a step, and the ledger grows only with one that has
  processed its delivery.
* `traced_step`: so every new row of the ledger has its call.
-/

namespace EventRelay

/-- Within a topic the key of a delivery is its place. -/
theorem Delivery.eq_of_eventKey {d d' : Delivery} (htopic : d.topic = d'.topic)
    (h : d.eventKey = d'.eventKey) : d.partition = d'.partition ∧ d.offset = d'.offset := by
  have hlist := congrArg String.toList h
  simp only [eventKey, htopic, String.toList_append, List.append_assoc,
    List.append_cancel_left_eq] at hlist
  obtain ⟨hpartition, hoffset⟩ := Number.eq_of_toString_append (Number.isDigit_of_dash _)
    (Number.isDigit_of_dash _) hlist
  exact ⟨hpartition, String.toList_injective (List.cons.inj hoffset).2⟩

namespace Handler

open Work

variable {rules : Rules} {s s' : Handlers}

/-- What the end of a call has done to the ledger: a delivery that was processed is recorded, and it
was not recorded before. -/
inductive Entered (e : Ended) (before after : Database) : Prop where
  /-- It has recorded its delivery. -/
  | recorded (hresult : e.result = .ok .processed)
      (hnew : before.isRecorded e.delivery.eventKey = false) (row : LedgerRow)
      (hkey : row.eventKey = e.delivery.eventKey) (hledger : after.ledger = before.ledger ++ [row])
  /-- It has not processed its delivery. -/
  | nothing (hresult : e.result ≠ .ok .processed) (hledger : after.ledger = before.ledger)

/-- What a step does to the calls that have ended and to the ledger. -/
inductive Ending (s s' : Handlers) : Prop where
  /-- No call has ended. -/
  | none (hended : s'.ended = s.ended) (hledger : s'.stored.ledger = s.stored.ledger)
  /-- A call has ended. -/
  | one (e : Ended) (hended : s'.ended = e :: s.ended)
      (hdelivery : ∃ c ∈ s.running, c.delivery = e.delivery) (h : Entered e s.stored s'.stored)

/-- A step ends no call, or one whose record is where its answer says. -/
theorem ending_of_step (hs : Sound rules s) (hstep : Step rules s s') : Ending s s' := by
  cases hstep with
  | begin legacy d session hstored hstaged hscript => exact .none rfl rfl
  | die hc => exact .none rfl rfl
  | others hledger => exact .none rfl hledger
  | @proceed before after c hc t ht hstored r hr hfree =>
    have hmem : c ∈ s.running := mem_of_split hc
    rcases hpart : (c.next r).part t with ⟨result | next, u⟩
    · refine .one ⟨c.went s.stored u.stored, result⟩ rfl ⟨c, hmem, rfl⟩ ?_
      by_cases hresult : result = .ok .processed
      · subst hresult
        obtain ⟨-, row, hkey, hledger, hfirst⟩ := hasEffect_of_processed hs hc ht hstored hr hpart
        refine .recorded rfl ?_ row hkey hledger
        rw [Database.isRecorded, List.any_eq_false]
        exact fun q hq hsame => hfirst q hq (of_decide_eq_true hsame)
      · have hsame := stored_of_not_processed hs hc ht hstored hr hpart hresult
        exact .nothing hresult (congrArg Database.ledger hsame)
    · exact .none rfl (congrArg Database.ledger (onTrack_of_waits hs hc ht hstored hr hpart).1)

/-- As long as no call begins, no delivery is new to those under way. -/
theorem delivery_of_running (hstep : Step rules s s') (hcount : s'.count = s.count) :
    ∀ c' ∈ s'.running, ∃ c ∈ s.running, c.delivery = c'.delivery := by
  cases hstep with
  | begin legacy d session hstored hstaged hscript => exact absurd hcount (Nat.succ_ne_self _)
  | die hc => exact fun c' hc' => ⟨c', mem_of_mem_remove hc hc', rfl⟩
  | others hledger => exact fun c' hc' => ⟨c', hc', rfl⟩
  | @proceed before after c hc t ht hstored r hr hfree =>
    rcases hpart : (c.next r).part t with ⟨result | next, u⟩
    · exact fun c' hc' => ⟨c', mem_of_mem_remove hc hc', rfl⟩
    · intro c' hc'
      rcases mem_of_mem_replace hc hc' with hold | rfl
      · exact ⟨c', hold, rfl⟩
      · exact ⟨c, mem_of_split hc, rfl⟩

/-- Whatever is recorded was recorded at the beginning or by a call that processed its delivery. -/
def Traced (stored : Database) (s : Handlers) : Prop :=
  ∀ row ∈ s.stored.ledger, row ∈ stored.ledger ∨
    ∃ e ∈ s.ended, e.result = .ok .processed ∧ e.delivery.eventKey = row.eventKey

/-- Every step leaves records that come from somewhere. -/
theorem traced_step {stored : Database} (hs : Sound rules s) (hstep : Step rules s s')
    (h : Traced stored s) : Traced stored s' := by
  intro row hrow
  cases ending_of_step hs hstep with
  | none hended hledger =>
    rw [hledger] at hrow
    rw [hended]
    exact h row hrow
  | one e hended hdelivery hentered =>
    have hold : row ∈ s.stored.ledger → row ∈ stored.ledger ∨
        ∃ e ∈ s'.ended, e.result = .ok .processed ∧ e.delivery.eventKey = row.eventKey := by
      intro hrow
      rw [hended]
      exact (h row hrow).imp_right fun ⟨e', he', hsame⟩ => ⟨e', List.mem_cons_of_mem _ he', hsame⟩
    cases hentered with
    | recorded hresult hnew added hkey hledger =>
      rw [hledger] at hrow
      rcases List.mem_append.mp hrow with hrow | hrow
      · exact hold hrow
      · rw [List.mem_singleton.mp hrow, hended]
        exact .inr ⟨e, List.mem_cons_self, hresult, hkey.symm⟩
    | nothing hresult hledger => exact hold (hledger ▸ hrow)

end Handler

end EventRelay
