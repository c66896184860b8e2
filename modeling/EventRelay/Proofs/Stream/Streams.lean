import EventRelay.Stream.Broker

/-!
# Streams by name

What becomes of each stream when one of them is changed.

* `get?_put_self`, `get?_put_of_ne`: a stream that is put is there, and no other is touched.
* `contents_append`: an appended entry is the last one of its stream.
-/

namespace EventRelay.Streams

variable {ss : Streams} {s : Stream} {name : String}

/-! ## Putting a stream in its place -/

/-- A stream that is found has the name. -/
theorem name_of_get? (h : ss.get? name = some s) : s.name = name := by
  have := List.find?_some h
  simpa using this

/-- The stream of a name, or the empty one, has that name. -/
theorem name_getD_get? (ss : Streams) (name : String) :
    ((ss.get? name).getD (.empty name)).name = name := by
  rcases hget : ss.get? name with _ | s
  · rfl
  · exact name_of_get? hget

/-- A stream that is put is found. -/
theorem get?_put_self (ss : Streams) (s : Stream) : (ss.put s).get? s.name = some s := by
  unfold get?
  induction ss with
  | nil => simp [put]
  | cons t rest ih =>
    unfold put
    by_cases h : t.name = s.name
    · rw [if_pos h]
      simp
    · rw [if_neg h, List.find?_cons_of_neg (by simpa using h)]
      exact ih

/-- A stream that is put leaves what is found under other names. -/
theorem get?_put_of_ne (ss : Streams) (s : Stream) (h : s.name ≠ name) :
    (ss.put s).get? name = ss.get? name := by
  unfold get?
  induction ss with
  | nil => simp [put, h]
  | cons t rest ih =>
    unfold put
    by_cases ht : t.name = s.name
    · have hne : t.name ≠ name := fun hname => h (ht.symm.trans hname)
      rw [if_pos ht, List.find?_cons_of_neg (by simpa using h),
        List.find?_cons_of_neg (by simpa using hne)]
    · rw [if_neg ht]
      by_cases hname : t.name = name
      · rw [List.find?_cons_of_pos (by simpa using hname),
          List.find?_cons_of_pos (by simpa using hname)]
      · rw [List.find?_cons_of_neg (by simpa using hname),
          List.find?_cons_of_neg (by simpa using hname)]
        exact ih

/-! ## What is in a stream -/

/-- The entries of the stream of that name. -/
def entriesOf (ss : Streams) (name : String) : List Entry :=
  ((ss.get? name).map (·.entries)).getD []

/-- A stream that is not there has no entries. -/
theorem entriesOf_eq_nil (h : name ∉ ss.map (·.name)) : ss.entriesOf name = [] := by
  have hnone : ss.get? name = none := by
    refine List.find?_eq_none.mpr fun s hs hname => h ?_
    exact List.mem_map.mpr ⟨s, hs, by simpa using hname⟩
  unfold entriesOf
  rw [hnone]
  rfl

/-- The fields of the entries of the stream of that name, in order. -/
def contents (ss : Streams) (name : String) : List Fields := (ss.entriesOf name).map (·.fields)

section append

variable (ss : Streams) (name : String) (now : Instant) (fields : Fields) (maxlen : Option Int)
  (approximate : Bool)

/-- Appended fields are the last ones of the stream. -/
theorem contents_append :
    (ss.append name now fields maxlen approximate).2.contents name =
      ss.contents name ++ [fields] := by
  have hput := get?_put_self ss
    (((ss.get? name).getD (.empty name)).append now fields maxlen approximate).2
  have hsame : (((ss.get? name).getD (.empty name)).append now fields maxlen approximate).2.name =
      name := name_getD_get? ss name
  rw [hsame] at hput
  unfold contents entriesOf append
  dsimp only
  rw [hput]
  rcases hget : ss.get? name with _ | s
  · rfl
  · simp [Stream.append]

/-- The fields of other streams are as they were. -/
theorem contents_append_of_ne {other : String} (h : name ≠ other) :
    (ss.append name now fields maxlen approximate).2.contents other = ss.contents other := by
  have hne : (((ss.get? name).getD (.empty name)).append now fields maxlen approximate).2.name ≠
      other := fun hsame => h ((name_getD_get? ss name).symm.trans hsame)
  unfold contents entriesOf append
  dsimp only
  rw [get?_put_of_ne ss _ hne]

end append

end EventRelay.Streams
