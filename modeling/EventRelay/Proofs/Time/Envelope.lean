import EventRelay.Event.Reader
import EventRelay.Proofs.Number.Digits
import EventRelay.Proofs.Time.Calendar
import EventRelay.Proofs.Time.Clock

/-!
# Timestamps are read back

The written form of a timestamp is read as that timestamp, to the microsecond and with its offset,
in an envelope and in a free-form payload, and so is what a clock within the calendar shows.

* `ofIso?_localText`: a date and a time of day in front of an offset.
* `ofText?_envelopeText`, `ofText?_isoText`: the two written forms.
* `isProper_ofInstant`: the reading of a clock has a written form.
-/

namespace EventRelay.Timestamp

open Number

/-- A timestamp with a written form: a date of the calendar, a time of day, and an offset of whole
minutes and less than a day. -/
structure IsProper (t : Timestamp) : Prop where
  date : t.date.isValid = true
  hour : t.hour < 24
  minute : t.minute < 60
  second : t.second < 60
  micros : t.micros < 1000000
  offset : ∀ o ∈ t.offset, o.natAbs < 24 * offsetHour ∧ o.natAbs % offsetMinute = 0

/-! ## The parts -/

/-- Two places are read as the number. -/
theorem twoDigits?_padded {n : Nat} (h : n < 100) :
    ∃ a b, padded 2 n = [a, b] ∧ twoDigits? a b = some n := by
  refine ⟨_, _, padded_two h, ?_⟩
  rw [twoDigits?_digitChar (by omega) (by omega)]
  congr 1
  omega

/-- A valid date is read back from its places. -/
theorem date?_padded {d : Date} (h : d.isValid = true) (r : List Char) :
    date? (padded 4 d.year ++ '-' :: (padded 2 d.month ++ '-' :: (padded 2 d.day ++ r))) =
      some (d, r) := by
  have hvalid := h
  simp only [Date.isValid, Bool.and_eq_true, decide_eq_true_eq] at hvalid
  obtain ⟨⟨⟨⟨hyear, -⟩, hmonth⟩, -⟩, hday⟩ := hvalid
  have hlength : d.day ≤ 31 := by
    refine hday.trans ?_
    unfold Date.daysIn
    split
    · split <;> omega
    · split <;> omega
  obtain ⟨e, f, hef, hmonth'⟩ := twoDigits?_padded (n := d.month) (by omega)
  obtain ⟨g, i, hgi, hday'⟩ := twoDigits?_padded (n := d.day) (by omega)
  have hyear' : 100 * (10 * (d.year / 1000) + d.year / 100 % 10) +
      (10 * (d.year / 10 % 10) + d.year % 10) = d.year := by omega
  rw [padded_four (by omega), hef, hgi]
  simp only [List.cons_append, List.nil_append, date?, hmonth', hday', hyear',
    twoDigits?_digitChar (show d.year / 1000 < 10 by omega) (show d.year / 100 % 10 < 10 by omega),
    twoDigits?_digitChar (show d.year / 10 % 10 < 10 by omega) (show d.year % 10 < 10 by omega),
    if_pos h]

/-- What may follow the seconds of a time of day: nothing that could be a part of them. -/
def EndsSeconds (r : List Char) : Prop := ∀ c ∈ r.head?, c.isDigit = false ∧ c ≠ '.' ∧ c ≠ ','

/-- Seconds and their fraction are read back. -/
theorem seconds?_padded {second micros : Nat} {r : List Char} (hs : second < 60)
    (hm : micros < 1000000) (hr : EndsSeconds r) :
    seconds? (':' :: (padded 2 second ++
      ((if micros = 0 then [] else '.' :: padded 6 micros) ++ r))) = some (second, micros, r) := by
  obtain ⟨a, b, hab, hsecond⟩ := twoDigits?_padded (n := second) (by omega)
  rw [hab]
  by_cases hzero : micros = 0
  · rw [if_pos hzero, List.nil_append, hzero]
    simp only [List.cons_append, List.nil_append, seconds?, hsecond,
      if_neg (show ¬ 60 ≤ second by omega)]
    cases r with
    | nil => rfl
    | cons c r =>
      obtain ⟨-, hpoint, hcomma⟩ := hr c rfl
      exact if_neg (by rintro (h | h); exacts [hpoint h, hcomma h])
  · have hspan : spanDigits (padded 6 micros ++ r) = (padded 6 micros, r) :=
      spanDigits_append (fun _ => isDigit_of_mem_padded) fun c hc => (hr c hc).1
    have hlength : (padded 6 micros).length = 6 := length_padded (by omega)
    have hmicros : fractionMicros (padded 6 micros) = micros := by
      unfold fractionMicros
      rw [List.take_of_length_le (by omega)]
      dsimp only
      rw [digitsValue_padded, hlength]
      exact Nat.mul_one _
    have hpos : 0 < (padded 6 micros).length := by omega
    obtain ⟨c, ds, hcons⟩ := List.exists_cons_of_ne_nil (List.ne_nil_of_length_pos hpos)
    rw [if_neg hzero]
    simp only [List.cons_append, List.nil_append, seconds?, hsecond,
      if_neg (show ¬ 60 ≤ second by omega), true_or, if_true, hspan]
    rw [hcons] at hmicros ⊢
    dsimp only
    rw [hmicros]

/-- An offset in the written form of envelopes. -/
def envelopeOffset : Option Int → List Char
  | none => []
  | some o => if o = 0 then ['Z'] else offsetText o

/-- An offset of whole minutes is read back. -/
theorem offset?_offsetText {o : Int} (hday : o.natAbs < 24 * offsetHour)
    (hminutes : o.natAbs % offsetMinute = 0) : offset? (offsetText o) = some (some o) := by
  have hhour : o.natAbs / offsetHour < 24 := by
    unfold offsetHour at hday ⊢
    omega
  have hminute : o.natAbs / offsetMinute % 60 < 60 := Nat.mod_lt _ (by decide)
  have hsize : offsetHour * (o.natAbs / offsetHour) +
      offsetMinute * (o.natAbs / offsetMinute % 60) = o.natAbs := by
    unfold offsetHour offsetMinute at *
    omega
  obtain ⟨a, b, hab, hread⟩ := twoDigits?_padded (n := o.natAbs / offsetHour) (by omega)
  obtain ⟨c, d, hcd, hread'⟩ := twoDigits?_padded (n := o.natAbs / offsetMinute % 60) (by omega)
  have hsigned (negative : Bool) : signedOffset? negative a b c d =
      some (Number.signed negative o.natAbs) := by
    unfold signedOffset?
    simp only [hread, hread', if_pos (show _ ∧ _ from ⟨hhour, hminute⟩), hsize]
  have hsign : offsetSign? (if o < 0 then '-' else '+') = some (decide (o < 0)) := by
    by_cases hneg : o < 0
    · rw [if_pos hneg, decide_eq_true hneg]
      rfl
    · rw [if_neg hneg, decide_eq_false hneg]
      rfl
  have hvalue : Number.signed (decide (o < 0)) o.natAbs = o := by
    unfold Number.signed
    split
    · rename_i hneg
      have := of_decide_eq_true hneg
      omega
    · rename_i hneg
      have := of_decide_eq_false (Bool.eq_false_iff.mpr hneg)
      omega
  unfold offsetText
  dsimp only
  rw [hab, hcd]
  simp only [List.cons_append, List.nil_append, offset?, hsign, Option.bind_some, hsigned,
    Option.map_some, hvalue]

/-- It is read back in the form of envelopes. -/
theorem offset?_envelopeOffset {offset : Option Int}
    (h : ∀ o ∈ offset, o.natAbs < 24 * offsetHour ∧ o.natAbs % offsetMinute = 0) :
    offset? (envelopeOffset offset) = some offset := by
  cases offset with
  | none => rfl
  | some o =>
    unfold envelopeOffset
    dsimp only
    split
    · rename_i hzero
      rw [hzero]
      rfl
    · obtain ⟨hday, hminutes⟩ := h o rfl
      exact offset?_offsetText hday hminutes

/-- An offset in the written form of free-form payloads. -/
def isoOffset : Option Int → List Char
  | none => []
  | some o => offsetText o ++ offsetRest o

/-- It is read back in the form of free-form payloads. -/
theorem offset?_isoOffset {offset : Option Int}
    (h : ∀ o ∈ offset, o.natAbs < 24 * offsetHour ∧ o.natAbs % offsetMinute = 0) :
    offset? (isoOffset offset) = some offset := by
  cases offset with
  | none => rfl
  | some o =>
    obtain ⟨hday, hminutes⟩ := h o rfl
    have hrest : offsetRest o = [] := if_pos hminutes
    unfold isoOffset
    dsimp only
    rw [hrest, List.append_nil]
    exact offset?_offsetText hday hminutes

/-- An offset begins with its sign. -/
theorem endsSeconds_offsetText (o : Int) (r : List Char) : EndsSeconds (offsetText o ++ r) := by
  intro c hc
  unfold offsetText at hc
  dsimp only at hc
  rw [List.cons_append, List.cons_append] at hc
  cases hc
  split
  all_goals decide

/-- No offset could be taken for a part of the seconds. -/
theorem endsSeconds_envelopeOffset (offset : Option Int) :
    EndsSeconds (envelopeOffset offset) := by
  cases offset with
  | none => exact nofun
  | some o =>
    unfold envelopeOffset
    dsimp only
    split
    · rintro _ ⟨⟩
      decide
    · have hends := endsSeconds_offsetText o []
      rw [List.append_nil] at hends
      exact hends

/-- The same in the other form. -/
theorem endsSeconds_isoOffset (offset : Option Int) : EndsSeconds (isoOffset offset) := by
  cases offset with
  | none => exact nofun
  | some o => exact endsSeconds_offsetText o _

/-! ## The whole -/

/-- The places of a local time, one after another. -/
theorem localText_eq (t : Timestamp) (r : List Char) :
    t.localText ++ r =
      padded 4 t.date.year ++ '-' :: (padded 2 t.date.month ++ '-' :: (padded 2 t.date.day ++
        'T' :: (padded 2 t.hour ++ ':' :: (padded 2 t.minute ++ ':' :: (padded 2 t.second ++
          ((if t.micros = 0 then [] else '.' :: padded 6 t.micros) ++ r)))))) := by
  unfold localText
  simp only [List.append_assoc, List.cons_append]

/-- A date and a time of day in front of an offset, whatever the form of the offset. -/
theorem ofIso?_localText {t : Timestamp} (ht : t.IsProper) {r : List Char}
    (hends : EndsSeconds r) (hoffset : offset? r = some t.offset) :
    ofIso? (t.localText ++ r) = some t := by
  obtain ⟨a, b, hab, hhour⟩ := twoDigits?_padded (n := t.hour) (by have := ht.hour; omega)
  obtain ⟨c, d, hcd, hminute⟩ := twoDigits?_padded (n := t.minute) (by have := ht.minute; omega)
  have hseconds := seconds?_padded ht.second ht.micros hends
  have htime : timeOfDay? t.date (padded 2 t.hour ++ ':' :: (padded 2 t.minute ++
      ':' :: (padded 2 t.second ++
        ((if t.micros = 0 then [] else '.' :: padded 6 t.micros) ++ r)))) = some t := by
    rw [hab, hcd]
    simp only [List.cons_append, List.nil_append, timeOfDay?, hhour, hminute, hseconds,
      if_pos (show _ ∧ _ from ⟨ht.hour, ht.minute⟩), hoffset, Option.map_some]
  unfold ofIso?
  rw [localText_eq, date?_padded ht.date]
  exact htime

/-- A proper timestamp is read back from an envelope. -/
theorem ofText?_envelopeText {t : Timestamp} (ht : t.IsProper) :
    ofText? t.envelopeText = some t := by
  have htext : t.envelopeText.toList = t.localText ++ envelopeOffset t.offset := by
    unfold envelopeText envelopeOffset
    cases t.offset <;> exact String.toList_ofList
  have hiso : ofIso? t.envelopeText.toList = some t := by
    rw [htext]
    exact ofIso?_localText ht (endsSeconds_envelopeOffset _) (offset?_envelopeOffset ht.offset)
  simp only [ofText?, hiso, Option.orElse_some]

/-- A proper timestamp is read back from a free-form payload. -/
theorem ofText?_isoText {t : Timestamp} (ht : t.IsProper) : ofText? t.isoText = some t := by
  have htext : t.isoText.toList = t.localText ++ isoOffset t.offset := by
    unfold isoText isoOffset
    cases t.offset <;> exact String.toList_ofList
  have hiso : ofIso? t.isoText.toList = some t := by
    rw [htext]
    exact ofIso?_localText ht (endsSeconds_isoOffset _) (offset?_isoOffset ht.offset)
  simp only [ofText?, hiso, Option.orElse_some]

/-! ## Readings of a clock -/

/-- A later instant is no earlier on the wall clock. -/
theorem wall_le_wall {a b : Instant} (h : a ≤ b) : a.wall ≤ b.wall :=
  Int.mul_le_mul_of_nonneg_right (Span.nearest_le_nearest (by decide) h) (by decide)

/-- What a clock shows in between is in the calendar if its first and its last reading are. -/
theorem isDated_wall_between {a i b : Instant} (ha : a.wall.isDated = true)
    (hb : b.wall.isDated = true) (hai : a ≤ i) (hib : i ≤ b) : i.wall.isDated = true := by
  unfold Instant.isDated at ha hb ⊢
  simp only [Bool.and_eq_true, decide_eq_true_eq] at ha hb ⊢
  exact ⟨Int.le_trans ha.1 (wall_le_wall hai), Int.lt_of_le_of_lt (wall_le_wall hib) hb.2⟩

/-- A number of seconds within the years 1 to 9999 has a written form. -/
theorem isProper_ofUnix {seconds : Int} {micros : Nat}
    (h0 : 86400 * Date.toDays ⟨1, 1, 1⟩ ≤ seconds)
    (h1 : seconds < 86400 * Date.toDays ⟨10000, 1, 1⟩) (hm : micros < 1000000) :
    (ofUnix seconds micros).IsProper ∧ (ofUnix seconds micros).date.year ≠ 0 := by
  have hdays : Int.fdiv seconds 86400 = seconds / 86400 :=
    Int.fdiv_eq_ediv_of_nonneg _ (by decide)
  obtain ⟨hdate, hyear⟩ := Date.ofDays_calendar
    (show Date.toDays ⟨1, 1, 1⟩ ≤ Int.fdiv seconds 86400 by omega) (by omega)
  refine ⟨⟨hdate, ?_, Nat.mod_lt _ (by decide), Nat.mod_lt _ (by decide), hm, ?_⟩, hyear⟩
  · change (seconds - Int.fdiv seconds 86400 * 86400).toNat / 3600 < 24
    omega
  · rintro o ⟨⟩
    decide

/-- An instant whose wall clock shows a date lies in the years of the calendar. -/
theorem isDated_wall {i : Instant} (h : i.wall.isDated = true) :
    1000000 * (86400 * Date.toDays ⟨1, 1, 1⟩) ≤ Span.toMicroseconds i ∧
      Span.toMicroseconds i < 1000000 * (86400 * Date.toDays ⟨10000, 1, 1⟩) := by
  have hpos : (0 : Int) < Span.microsecond := by decide
  have hunit (n : Int) : Span.ofSeconds n = 1000000 * n * Span.microsecond := by
    unfold Span.ofSeconds Span.second
    rw [← mul_assoc, mul_comm n]
  unfold Instant.isDated Instant.wall Span.rounded Instant.ofDate at h
  simp only [Bool.and_eq_true, decide_eq_true_eq, hunit] at h
  exact ⟨le_of_mul_le_mul_right h.1 hpos, lt_of_mul_lt_mul_right h.2 hpos.le⟩

/-- What a clock within the calendar shows has a written form. -/
theorem isProper_ofInstant {i : Instant} (h : i.wall.isDated = true) :
    (ofInstant i).IsProper ∧ (ofInstant i).date.year ≠ 0 := by
  obtain ⟨h0, h1⟩ := isDated_wall h
  have hseconds : Int.fdiv (Span.toMicroseconds i) 1000000 = Span.toMicroseconds i / 1000000 :=
    Int.fdiv_eq_ediv_of_nonneg _ (by decide)
  exact isProper_ofUnix (by omega) (by omega) (by omega)

end EventRelay.Timestamp
