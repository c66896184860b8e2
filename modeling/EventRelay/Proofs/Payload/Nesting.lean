import EventRelay.Payload.Writer

/-!
# How deep payloads nest

The writer of payloads is told how deep it may go.  What it makes of a value depends on that only by
way of the depth of the value, which the value alone determines.

* `Value.induction`: what holds of values without parts and passes from parts to containers holds of
  all values.
* `Value.sound`: where a value is not too deep, its only fault is that some part of it has no
  written form.
* `Value.steady`: a value that has a written form has the same one wherever it is not too deep, and
  elsewhere that is its fault.
* `Payload.unwritable_of_wire`, `Payload.wire_of_deep`: what that means for payloads.
-/

namespace EventRelay

namespace Value

mutual

/-- How deep containers are nested in a value. -/
def depth : Value → Nat
  | list items => depthOfItems items + 1
  | tuple items => depthOfItems items + 1
  | dict members => depthOfMembers members + 1
  | _ => 0

/-- How deep containers are nested in the deepest item. -/
def depthOfItems : List Value → Nat
  | [] => 0
  | v :: vs => max (depth v) (depthOfItems vs)

/-- How deep containers are nested in the deepest member; a name is no container. -/
def depthOfMembers : List (Value × Value) → Nat
  | [] => 0
  | (_, v) :: ms => max (depth v) (depthOfMembers ms)

end

variable {l : Json.Layout} {v : Value} {n : Nat} {e : Failure}

/-! ## Values without parts -/

/-- An integer without a text cannot be written. -/
theorem unwritable_of_integerText {n : Int} (h : integerText n = .error e) :
    ∃ cause, e = .unwritable cause := by
  unfold integerText at h
  dsimp only at h
  split at h
  · exact ⟨_, (Except.error.inj h).symm⟩
  · cases h

/-- A name without a text cannot be written. -/
theorem unwritable_of_nameText {name : Value} (h : nameText name = .error e) :
    ∃ cause, e = .unwritable cause := by
  unfold nameText at h
  split at h
  case h_5 => exact unwritable_of_integerText h
  case h_6 => exact ⟨_, (Except.error.inj h).symm⟩
  all_goals cases h

/-- A value without parts: how deep the writer may go does not matter for it. -/
structure IsLeaf (v : Value) : Prop where
  /-- No container is nested in it. -/
  depth : v.depth = 0
  /-- It is written alike at every depth. -/
  same : ∀ l n m, v.write l n = v.write l m
  /-- Where it is not written, it has no written form. -/
  fault : ∀ l n e, v.write l n = .error e → ∃ cause, e = .unwritable cause

/-- What holds of values without parts, and of a container if it holds of what is in it, holds of
every value. -/
theorem induction {P : Value → Prop} (ofLeaf : ∀ v, IsLeaf v → P v)
    (ofList : ∀ items, (∀ v ∈ items, P v) → P (.list items))
    (ofTuple : ∀ items, (∀ v ∈ items, P v) → P (.tuple items))
    (ofDict : ∀ members : List (Value × Value), (∀ m ∈ members, P m.2) → P (.dict members))
    (v : Value) : P v := by
  cases v with
  | list items => exact ofList items fun v hv => induction ofLeaf ofList ofTuple ofDict v
  | tuple items => exact ofTuple items fun v hv => induction ofLeaf ofList ofTuple ofDict v
  | dict members => exact ofDict members fun m hm => induction ofLeaf ofList ofTuple ofDict m.2
  | int n =>
    refine ofLeaf _ ⟨rfl, fun l n m => by simp only [write], fun l n e he => ?_⟩
    rw [write] at he
    exact unwritable_of_integerText he
  | null | bool b | float x | text s | uuid digits | moment t =>
    refine ofLeaf _ ⟨rfl, fun l n m => by simp only [write], fun l n e he => ?_⟩
    rw [write] at he
    cases he
  | _ =>
    refine ofLeaf _ ⟨rfl, fun l n m => by simp [write], fun l n e he => ?_⟩
    simp [write] at he
    exact ⟨_, he.symm⟩
termination_by sizeOf v
decreasing_by
  · have := List.sizeOf_lt_of_mem hv
    simp only [Value.list.sizeOf_spec]
    omega
  · have := List.sizeOf_lt_of_mem hv
    simp only [Value.tuple.sizeOf_spec]
    omega
  · have := List.sizeOf_lt_of_mem hm
    obtain ⟨name, v⟩ := m
    simp only [Value.dict.sizeOf_spec, Prod.mk.sizeOf_spec] at this ⊢
    omega

/-! ## Faults -/

/-- What fails after a change failed before it. -/
theorem map_eq_error {α β : Type} {r : Except Failure α} {f : α → β} (h : r.map f = .error e) :
    r = .error e := by
  cases r with
  | error e' => exact congrArg Except.error (Except.error.inj h)
  | ok a => cases h

/-- At this depth the value has no fault but that some part of it has no written form. -/
def Sound (l : Json.Layout) (v : Value) : Prop :=
  ∀ n e, v.depth ≤ n → v.write l n = .error e → ∃ cause, e = .unwritable cause

/-- Items within the depth fail only because one of them cannot be written. -/
theorem unwritable_of_writeItems {items : List Value} (hsound : ∀ v ∈ items, v.Sound l)
    (hdepth : depthOfItems items ≤ n) (h : writeItems l n items = .error e) :
    ∃ cause, e = .unwritable cause := by
  induction items with
  | nil =>
    rw [writeItems] at h
    cases h
  | cons v items ih =>
    rw [depthOfItems] at hdepth
    rw [writeItems] at h
    rcases hv : v.write l n with e' | s
    · rw [hv] at h
      cases h
      exact hsound v List.mem_cons_self n e (by omega) hv
    · rw [hv] at h
      exact ih (fun u hu => hsound u (List.mem_cons_of_mem _ hu)) (by omega) (map_eq_error h)

/-- Members within the depth fail only because one of them cannot be written. -/
theorem unwritable_of_writeMembers {members : List (Value × Value)}
    (hsound : ∀ m ∈ members, m.2.Sound l) (hdepth : depthOfMembers members ≤ n)
    (h : writeMembers l n members = .error e) : ∃ cause, e = .unwritable cause := by
  induction members with
  | nil =>
    rw [writeMembers] at h
    cases h
  | cons m members ih =>
    obtain ⟨name, v⟩ := m
    rw [depthOfMembers] at hdepth
    rw [writeMembers] at h
    rcases hname : nameText name with e' | s
    · rw [hname] at h
      cases h
      exact unwritable_of_nameText hname
    rw [hname] at h
    dsimp only at h
    rcases hv : v.write l n with e' | s
    · rw [hv] at h
      cases h
      exact hsound (name, v) List.mem_cons_self n e (Nat.le_trans (Nat.le_max_left _ _) hdepth) hv
    · rw [hv] at h
      exact ih (fun u hu => hsound u (List.mem_cons_of_mem _ hu)) (by omega) (map_eq_error h)

/-- Within its depth a value fails only because a part of it cannot be written. -/
theorem sound (l : Json.Layout) (v : Value) : v.Sound l := by
  induction v using Value.induction with
  | ofLeaf v hv => exact fun n e _ h => hv.fault l n e h
  | ofList items ih | ofTuple items ih =>
    intro n e hdepth h
    rw [depth] at hdepth
    cases n with
    | zero => omega
    | succ n =>
      rw [write] at h
      exact unwritable_of_writeItems ih (by omega) (map_eq_error h)
  | ofDict members ih =>
    intro n e hdepth h
    rw [depth] at hdepth
    cases n with
    | zero => omega
    | succ n =>
      rw [write] at h
      exact unwritable_of_writeMembers ih (by omega) (map_eq_error h)

/-! ## Written forms -/

section

variable {α β : Type}

/-- A result for which the writer must go so deep; it is there if the writer may. -/
def within (needed allowed : Nat) (a : α) : Except Failure α :=
  if needed ≤ allowed then .ok a else .error .nestedTooDeep

/-- A result is there where the writer may go deep enough. -/
theorem within_of_le {needed allowed : Nat} (h : needed ≤ allowed) (a : α) :
    within needed allowed a = .ok a := if_pos h

/-- It is too deep where the writer may not. -/
theorem within_of_lt {needed allowed : Nat} (h : allowed < needed) (a : α) :
    within needed allowed a = .error .nestedTooDeep := if_neg (Nat.not_le.mpr h)

/-- One level more is needed where one more is allowed. -/
theorem within_succ (needed allowed : Nat) (a : α) :
    within (needed + 1) (allowed + 1) a = within needed allowed a := by
  simp only [within, Nat.add_le_add_iff_right]

/-- A result may be changed after the depth is looked at. -/
theorem map_within (needed allowed : Nat) (f : α → β) (a : α) :
    (within needed allowed a).map f = within needed allowed (f a) := by
  unfold within
  split <;> rfl

/-- Of two results one after another, either may be too deep. -/
theorem within_max_of_lt {d allowed : Nat} (h : allowed < d) (d' : Nat) (a : α) :
    within (max d d') allowed a = .error .nestedTooDeep :=
  within_of_lt (Nat.lt_of_lt_of_le h (Nat.le_max_left _ _)) a

/-- Of two depths only the one that is not yet allowed counts. -/
theorem within_max_of_le {d allowed : Nat} (h : d ≤ allowed) (d' : Nat) (a : α) :
    within (max d d') allowed a = within d' allowed a := by
  simp only [within, Nat.max_le, h, true_and]

/-- What is there after a change was there before it. -/
theorem exists_of_map_eq_ok {r : Except Failure α} {f : α → β} {b : β} (h : r.map f = .ok b) :
    ∃ a, r = .ok a ∧ f a = b := by
  cases r with
  | error e => cases h
  | ok a => exact ⟨a, rfl, Except.ok.inj h⟩

end

/-- What is written at some depth is written alike wherever that is deep enough, and elsewhere the
value is too deep. -/
def Steady (l : Json.Layout) (v : Value) : Prop :=
  ∀ m s, v.write l m = .ok s → ∀ n, v.write l n = within v.depth n s

/-- Items that were once written are written alike wherever that is deep enough. -/
theorem writeItems_of_ok {items : List Value} (hsteady : ∀ v ∈ items, v.Steady l) {m : Nat}
    {written : List String} (h : writeItems l m items = .ok written) (n : Nat) :
    writeItems l n items = within (depthOfItems items) n written := by
  induction items generalizing written with
  | nil =>
    rw [writeItems] at h ⊢
    rw [depthOfItems, within_of_le (Nat.zero_le n), ← h]
  | cons v items ih =>
    rw [writeItems] at h
    rcases hv : v.write l m with e | s
    · rw [hv] at h
      cases h
    rw [hv] at h
    obtain ⟨rest, hrest, rfl⟩ := exists_of_map_eq_ok h
    rw [writeItems, depthOfItems, hsteady v List.mem_cons_self m s hv n,
      ih (fun u hu => hsteady u (List.mem_cons_of_mem _ hu)) hrest]
    rcases Nat.lt_or_ge n v.depth with hd | hd
    · rw [within_of_lt hd, within_max_of_lt hd]
    · rw [within_of_le hd, within_max_of_le hd]
      exact map_within _ _ _ _

/-- Members that were once written are written alike wherever that is deep enough. -/
theorem writeMembers_of_ok {members : List (Value × Value)}
    (hsteady : ∀ m ∈ members, m.2.Steady l) {m : Nat} {written : List (String × String)}
    (h : writeMembers l m members = .ok written) (n : Nat) :
    writeMembers l n members = within (depthOfMembers members) n written := by
  induction members generalizing written with
  | nil =>
    rw [writeMembers] at h ⊢
    rw [depthOfMembers, within_of_le (Nat.zero_le n), ← h]
  | cons member members ih =>
    obtain ⟨name, v⟩ := member
    rw [writeMembers] at h
    rcases hname : nameText name with e | text
    · rw [hname] at h
      cases h
    rw [hname] at h
    dsimp only at h
    rcases hv : v.write l m with e | s
    · rw [hv] at h
      cases h
    rw [hv] at h
    obtain ⟨rest, hrest, rfl⟩ := exists_of_map_eq_ok h
    have hv' : v.write l n = within v.depth n s := hsteady (name, v) List.mem_cons_self m s hv n
    rw [writeMembers, depthOfMembers, hname, hv',
      ih (fun u hu => hsteady u (List.mem_cons_of_mem _ hu)) hrest]
    rcases Nat.lt_or_ge n v.depth with hd | hd
    · rw [within_of_lt hd, within_max_of_lt hd]
    · rw [within_of_le hd, within_max_of_le hd]
      exact map_within _ _ _ _

/-- A value that was once written is written alike wherever that is deep enough. -/
theorem steady (l : Json.Layout) (v : Value) : v.Steady l := by
  induction v using Value.induction with
  | ofLeaf v hv =>
    intro m s h n
    rw [hv.depth, within_of_le (Nat.zero_le n), hv.same l n m, h]
  | ofList items ih | ofTuple items ih =>
    intro m s h n
    cases m with
    | zero =>
      rw [write] at h
      cases h
    | succ m =>
      rw [write] at h
      obtain ⟨written, hwritten, rfl⟩ := exists_of_map_eq_ok h
      rw [depth]
      cases n with
      | zero => rw [write, within_of_lt (Nat.succ_pos _)]
      | succ n => rw [write, writeItems_of_ok ih hwritten n, map_within, within_succ]
  | ofDict members ih =>
    intro m s h n
    cases m with
    | zero =>
      rw [write] at h
      cases h
    | succ m =>
      rw [write] at h
      obtain ⟨written, hwritten, rfl⟩ := exists_of_map_eq_ok h
      rw [depth]
      cases n with
      | zero => rw [write, within_of_lt (Nat.succ_pos _)]
      | succ n => rw [write, writeMembers_of_ok ih hwritten n, map_within, within_succ]

/-! ## Wrapping -/

/-- Lists around a value are as many levels more. -/
theorem depth_nestInLists (n : Nat) (v : Value) : (nestInLists n v).depth = n + v.depth := by
  induction n generalizing v with
  | zero => exact (Nat.zero_add _).symm
  | succ n ih =>
    rw [nestInLists, ih, depth, depthOfItems, depthOfItems, Nat.max_zero]
    omega

/-- What has a written form has one when it is wrapped, at some depth. -/
theorem exists_write_nestInLists (n : Nat) {v : Value} {m : Nat} {s : String}
    (h : v.write l m = .ok s) : ∃ m s, (nestInLists n v).write l m = .ok s := by
  induction n generalizing v m s with
  | zero => exact ⟨m, s, h⟩
  | succ n ih =>
    refine ih (m := m + 1) (s := l.array [s]) ?_
    rw [write, writeItems, h, writeItems]
    rfl

end Value

/-! ## Payloads -/

namespace Payload

/-- How deep containers are nested in a payload; an envelope and a text have none. -/
def depth : Payload → Nat
  | value v => v.depth
  | _ => 0

/-- The payload has a written form, however deep one has to go for it. -/
def HasForm : Payload → Prop
  | value v => ∃ n s, v.write .spaced n = .ok s
  | _ => True

variable {p : Payload}

/-- A payload that is not too deep is sent, or some part of it has no written form. -/
theorem unwritable_of_wire {e : Failure} (hdepth : p.depth ≤ nestingLimit) (h : p.wire = .error e) :
    ∃ cause, e = .unwritable cause := by
  unfold wire at h
  split at h
  case h_5 v _ => exact Value.sound .spaced v nestingLimit e hdepth h
  all_goals cases h

/-- A payload that is too deep is not sent, although it has a written form. -/
theorem wire_of_deep (hform : p.HasForm) (hdepth : nestingLimit < p.depth) :
    p.wire = .error .nestedTooDeep := by
  unfold wire
  split
  case h_5 v _ =>
    obtain ⟨n, s, hs⟩ := hform
    rw [Value.steady .spaced v n s hs]
    exact Value.within_of_lt hdepth s
  all_goals exact absurd hdepth (Nat.not_lt.mpr (Nat.zero_le _))

end Payload

end EventRelay
