import EventRelay.Proofs.Store.Operations

/-!
# Units of work with connections of their own

Each unit of work has its own connection.  It sees what others have committed, with what it has
staged itself on top: what it removed is gone, what it added is there.  Nobody sees what it has
staged before it commits.  The ledger admits one row of a key, also among rows not committed:
whoever would add a second one waits until the first is committed or dropped.

* `overlay`, `Database.rebase`: what a unit of work has staged, on top of what is stored now.
* `Resumed`: a session at the end of a wait.
* `isolated`: the setting of a unit of work among others that leave the ledger's rows as they are.
* `rebase_self`, `overlay_filter`, `overlay_append`: what is on top stays on top.
-/

namespace EventRelay

section overlay

variable {α : Type} [DecidableEq α]

/-- What was made of `base`, on top of what has become of it otherwise: rows that were removed are
gone, rows that were added are there. -/
def overlay (base mine theirs : List α) : List α :=
  theirs.filter (fun x => x ∈ mine ∨ x ∉ base) ++ mine.filter (· ∉ base)

/-- Where nothing was made of a list there is what has become of it otherwise. -/
theorem overlay_self (base theirs : List α) : overlay base base theirs = theirs := by
  have hkept : theirs.filter (fun x => decide (x ∈ base ∨ x ∉ base)) = theirs := by
    refine List.filter_eq_self.mpr fun x _ => ?_
    rw [decide_eq_true_eq]
    exact Classical.em _
  have hnone : base.filter (fun x => decide (x ∉ base)) = [] := by
    refine List.filter_eq_nil_iff.mpr fun x hx => ?_
    rw [decide_eq_true_eq]
    exact not_not_intro hx
  unfold overlay
  rw [hkept, hnone, List.append_nil]

/-- Rows that were removed stay removed. -/
theorem overlay_filter (base theirs removed : List α) :
    overlay base (base.filter (· ∉ removed)) theirs =
      theirs.filter (· ∉ removed.filter (· ∈ base)) := by
  have hnone : (base.filter (· ∉ removed)).filter (· ∉ base) = [] := by
    refine List.filter_eq_nil_iff.mpr fun x hx => ?_
    rw [decide_eq_true_eq]
    exact not_not_intro (List.mem_filter.mp hx).1
  unfold overlay
  rw [hnone, List.append_nil]
  refine List.filter_congr fun x _ => ?_
  by_cases hbase : x ∈ base
  · by_cases hremoved : x ∈ removed
    · simp [hbase, hremoved]
    · simp [hbase, hremoved]
  · simp [hbase]

/-- Rows that were added stay added. -/
theorem overlay_append (base theirs added : List α) (hadded : ∀ x ∈ added, x ∉ base) :
    overlay base (base ++ added) theirs = theirs ++ added := by
  have hkept : theirs.filter (fun x => decide (x ∈ base ++ added ∨ x ∉ base)) = theirs := by
    refine List.filter_eq_self.mpr fun x _ => ?_
    rw [decide_eq_true_eq, List.mem_append]
    by_cases hbase : x ∈ base
    · exact .inl (.inl hbase)
    · exact .inr hbase
  have hold : base.filter (fun x => decide (x ∉ base)) = [] := by
    refine List.filter_eq_nil_iff.mpr fun x hx => ?_
    rw [decide_eq_true_eq]
    exact not_not_intro hx
  have hnew : added.filter (fun x => decide (x ∉ base)) = added := by
    refine List.filter_eq_self.mpr fun x hx => ?_
    rw [decide_eq_true_eq]
    exact hadded x hx
  unfold overlay
  rw [hkept, List.filter_append, hold, hnew, List.nil_append]

end overlay

/-- What a unit of work has staged, on top of the tables as they are stored now. -/
def Database.rebase (base mine theirs : Database) : Database where
  outbox := overlay base.outbox mine.outbox theirs.outbox
  ledger := overlay base.ledger mine.ledger theirs.ledger
  users := overlay base.users mine.users theirs.users
  tasks := overlay base.tasks mine.tasks theirs.tasks

/-- A unit of work that has staged nothing sees the stored tables. -/
theorem Database.rebase_self (base theirs : Database) : rebase base base theirs = theirs := by
  unfold rebase
  simp only [overlay_self]

/-- The keys of the ledger rows that a session has added and not committed. -/
def Session.pendingKeys (s : Session) : List String :=
  (s.staged.ledger.filter (· ∉ s.stored.ledger)).map (·.eventKey)

/-- The key of a ledger row that was added and not committed is a pending one. -/
theorem Session.mem_pendingKeys {s : Session} {row : LedgerRow} (h : row ∈ s.staged.ledger)
    (hnew : row ∉ s.stored.ledger) : row.eventKey ∈ s.pendingKeys :=
  List.mem_map_of_mem (List.mem_filter.mpr ⟨h, decide_eq_true hnew⟩)

/-- A session at the end of a wait, in which others may have committed. -/
structure Awakened (s t : Session) : Prop where
  /-- Nobody else touches the script. -/
  script : t.script = s.script
  /-- Nor the connection. -/
  begun : t.begun = s.begun
  /-- What it has staged is on top of what is stored. -/
  staged : t.staged = s.stored.rebase s.staged t.stored

/-- A session at the end of a wait, in which nobody has committed a key that it has added itself. -/
structure Resumed (s t : Session) : Prop extends Awakened s t where
  /-- No row of the ledger that is new has a key that it has added itself. -/
  apart : ∀ row ∈ t.stored.ledger, row ∉ s.stored.ledger → row.eventKey ∉ s.pendingKeys

namespace Work

/-- A unit of work among others, whose operations follow the rules.  `stays` are tasks that are
there as long as it lasts. -/
def isolated (stays : Task → Prop) (rules : Rules) : Setting where
  toRules := rules
  rely s t := Resumed s t ∧ ∀ x, stays x → x ∈ t.stored.tasks
  script_eq h := h.1.script

end Work

end EventRelay
