import EventRelay.Event.Kind
import EventRelay.Proofs.Store.OutboxTable
import EventRelay.Store.Database
import Mathlib.Data.List.Nodup
import Mathlib.Logic.Function.Basic

/-!
# Changes of one row

The tables of users and tasks change by one row at a time.  `RowChange` says that a row was added
under an identifier that was free, put in the place of the row with its identifier, or removed, and
that every other row stayed where it was.  As identifiers are distinct, this is what the operations
on the tables do.

* `rowChange_replace`, `rowChange_filter`: what it is to put a row in another one's place, and to
  remove one.
* `RowChange.nodup`: identifiers stay distinct.
* `RowChange.image`: what a table says of each identifier changes at one identifier only.
-/

namespace EventRelay

variable {α β : Type} {key : α → Int}

/-- A table has changed by one row: the one that was added, the one that took the place of
another, or the one that was removed. -/
inductive RowChange (key : α → Int) : ChangeKind → α → List α → List α → Prop where
  | created {rows : List α} {a : α} (h : ∀ b ∈ rows, key b ≠ key a) :
      RowChange key .created a rows (rows ++ [a])
  | updated {before after : List α} {old a : α} (h : key a = key old) :
      RowChange key .updated a (before ++ old :: after) (before ++ a :: after)
  | deleted {before after : List α} {a : α} :
      RowChange key .deleted a (before ++ a :: after) (before ++ after)

variable {kind : ChangeKind} {a old : α} {rows rows' : List α}

/-! ## What the operations do -/

/-- In a table with distinct identifiers a row is apart from the rows around it. -/
theorem apart_of_nodup {before after : List α} (h : ((before ++ a :: after).map key).Nodup) :
    (∀ b ∈ before, key b ≠ key a) ∧ ∀ b ∈ after, key b ≠ key a := by
  rw [List.map_append, List.map_cons, List.nodup_append] at h
  obtain ⟨-, hafter, hbefore⟩ := h
  constructor
  · intro b hb
    exact hbefore _ (List.mem_map_of_mem hb) _ List.mem_cons_self
  · intro b hb heq
    exact (List.nodup_cons.mp hafter).1 (heq ▸ List.mem_map_of_mem hb)

/-- A row that takes the place of the one of its identifier changes the table by one row. -/
theorem rowChange_replace (hnodup : (rows.map key).Nodup) (hold : old ∈ rows)
    (ha : key a = key old) :
    RowChange key .updated a rows (rows.map fun b => if key b = key old then a else b) := by
  obtain ⟨before, after, rfl⟩ := List.append_of_mem hold
  obtain ⟨hbefore, hafter⟩ := apart_of_nodup hnodup
  have hmap : (before ++ old :: after).map (fun b => if key b = key old then a else b) =
      before ++ a :: after := by
    have hsame {l : List α} (hl : ∀ b ∈ l, key b ≠ key old) :
        l.map (fun b => if key b = key old then a else b) = l :=
      (List.map_congr_left fun b hb => if_neg (hl b hb)).trans (List.map_id'' (fun _ => rfl) l)
    rw [List.map_append, List.map_cons, hsame hbefore, hsame hafter, if_pos rfl]
  rw [hmap]
  exact .updated ha

/-- A row that is removed changes the table by one row. -/
theorem rowChange_filter (hnodup : (rows.map key).Nodup) (ha : a ∈ rows) :
    RowChange key .deleted a rows (rows.filter fun b => key b ≠ key a) := by
  obtain ⟨before, after, rfl⟩ := List.append_of_mem ha
  obtain ⟨hbefore, hafter⟩ := apart_of_nodup hnodup
  have hsame {l : List α} (hl : ∀ b ∈ l, key b ≠ key a) :
      l.filter (fun b => key b ≠ key a) = l :=
    List.filter_eq_self.mpr fun b hb => decide_eq_true (hl b hb)
  rw [List.filter_append, List.filter_cons_of_neg (by simp), hsame hbefore, hsame hafter]
  exact .deleted

/-! ## What a change comes to -/

/-- The row is in the table before the change or after it. -/
theorem RowChange.mem (h : RowChange key kind a rows rows') : a ∈ rows ∨ a ∈ rows' := by
  cases h with
  | created hfree => exact .inr (List.mem_append_right _ List.mem_cons_self)
  | updated hkey => exact .inr (List.mem_append_right _ List.mem_cons_self)
  | deleted => exact .inl (List.mem_append_right _ List.mem_cons_self)

/-- A table that changed by one row still has each identifier once. -/
theorem RowChange.nodup (h : RowChange key kind a rows rows') (hnodup : (rows.map key).Nodup) :
    (rows'.map key).Nodup := by
  cases h with
  | created hfree =>
    rw [List.map_append, List.map_cons, List.map_nil, List.nodup_append]
    refine ⟨hnodup, List.nodup_singleton _, ?_⟩
    rintro _ hx _ hy rfl
    obtain ⟨b, hb, hkey⟩ := List.mem_map.mp hx
    exact hfree b hb (hkey.trans (List.mem_singleton.mp hy))
  | updated hkey =>
    rw [List.map_append, List.map_cons, hkey]
    rwa [List.map_append, List.map_cons] at hnodup
  | deleted =>
    rw [List.map_append, List.map_cons] at hnodup
    rw [List.map_append]
    exact hnodup.sublist (List.Sublist.append_left (List.sublist_cons_self _ _) _)

/-- What a table says of each identifier. -/
def imageOf (key : α → Int) (f : α → β) (rows : List α) : Int → Option β :=
  fun i => (rows.find? fun b => key b = i).map f

/-- A change is put in under its identifier, or what was there is taken out. -/
def putChange (kind : ChangeKind) (i : Int) (b : β) (m : Int → Option β) : Int → Option β :=
  match kind with
  | .created => Function.update m i (some b)
  | .updated => Function.update m i (some b)
  | .deleted => Function.update m i none

/-- What the table says of each identifier changes for that row only. -/
theorem RowChange.image (h : RowChange key kind a rows rows') (hnodup : (rows.map key).Nodup)
    (f : α → β) :
    imageOf key f rows' = putChange kind (key a) (f a) (imageOf key f rows) := by
  have hmiss {l : List α} {i : Int} (hl : ∀ b ∈ l, key b ≠ i) :
      l.find? (fun b => decide (key b = i)) = none :=
    List.find?_eq_none.mpr fun b hb => by simpa using hl b hb
  funext i
  cases h with
  | created hfree =>
    unfold putChange imageOf
    dsimp only
    rw [List.find?_append]
    by_cases hi : i = key a
    · subst hi
      rw [hmiss hfree, Function.update_self]
      simp
    · rw [Function.update_of_ne hi, List.find?_cons_of_neg (by simpa using Ne.symm hi)]
      simp
  | @updated before after old _ hkey =>
    obtain ⟨hbefore, -⟩ := apart_of_nodup hnodup
    unfold putChange imageOf
    dsimp only
    rw [List.find?_append]
    by_cases hi : i = key a
    · subst hi
      rw [Function.update_self, hmiss (hkey ▸ hbefore), List.find?_cons_of_pos (by simp)]
      rfl
    · have hold : ¬ key old = i := fun h => hi (h.symm.trans hkey.symm)
      rw [Function.update_of_ne hi, List.find?_append,
        List.find?_cons_of_neg (by simpa using Ne.symm hi),
        List.find?_cons_of_neg (by simpa using hold)]
  | deleted =>
    obtain ⟨hbefore, hafter⟩ := apart_of_nodup hnodup
    unfold putChange imageOf
    dsimp only
    rw [List.find?_append]
    by_cases hi : i = key a
    · subst hi
      rw [Function.update_self, hmiss hbefore, hmiss hafter]
      rfl
    · rw [Function.update_of_ne hi, List.find?_append,
        List.find?_cons_of_neg (by simpa using Ne.symm hi)]

end EventRelay
