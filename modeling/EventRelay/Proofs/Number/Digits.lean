import EventRelay.Number.Decimal
import EventRelay.Time.Timestamp
import Mathlib.Tactic.IntervalCases

/-!
# Digits are read back

What a number is written as is read as that number, whether it is written as short as possible or
filled with zeros to a width.

* `digitsValue_toDigits`, `spanDigits_append`: the digits of a number, in front of anything that
  is no digit.
* `eq_of_toString_append`: so an integer is known by its written form, also there.
* `padded_succ`: a number of so many digits and one more; `digitsValue_padded` and its like
  follow by induction on the width.
-/

namespace EventRelay

namespace Number

/-- The value of digits is the one that the standard library gives them. -/
theorem digitsValue_eq (cs : List Char) : digitsValue cs = Nat.ofDigitChars 10 cs 0 :=
  Nat.ofDigitChars_eq_foldl.symm

/-- The digits of a number have its value. -/
theorem digitsValue_toDigits (n : Nat) : digitsValue (Nat.toDigits 10 n) = n := by
  rw [digitsValue_eq, Nat.ofDigitChars_ten_toDigits]

/-- Different numbers have different digits. -/
theorem toDigits_injective {m n : Nat} (h : Nat.toDigits 10 m = Nat.toDigits 10 n) : m = n := by
  rw [← digitsValue_toDigits m, h, digitsValue_toDigits]

/-- The digits of a number are digits. -/
theorem isDigit_of_mem_toDigits {n : Nat} {c : Char} (h : c ∈ Nat.toDigits 10 n) :
    c.isDigit = true := Nat.isDigit_of_mem_toDigits (by decide) (by decide) h

/-- There is no dash among digits. -/
theorem dash_notMem {cs : List Char} (h : ∀ c ∈ cs, c.isDigit = true) : '-' ∉ cs :=
  fun hmem => absurd (h '-' hmem) (by decide)

/-- Digits in front of something else are split off as they are. -/
theorem spanDigits_append {ds r : List Char} (hds : ∀ c ∈ ds, c.isDigit = true)
    (hr : ∀ c ∈ r.head?, c.isDigit = false) : spanDigits (ds ++ r) = (ds, r) := by
  have hrest : r.takeWhile Char.isDigit = [] ∧ r.dropWhile Char.isDigit = r := by
    cases r with
    | nil => exact ⟨rfl, rfl⟩
    | cons c r =>
      have hc : c.isDigit = false := hr c rfl
      simp [hc]
  unfold spanDigits
  rw [List.takeWhile_append_of_pos hds, List.dropWhile_append_of_pos hds, hrest.1, hrest.2,
    List.append_nil]

/-- Where digits end is known, and so is what they are the digits of. -/
theorem eq_of_toDigits_append {m n : Nat} {r r' : List Char}
    (hr : ∀ c ∈ r.head?, c.isDigit = false) (hr' : ∀ c ∈ r'.head?, c.isDigit = false)
    (h : Nat.toDigits 10 m ++ r = Nat.toDigits 10 n ++ r') : m = n ∧ r = r' := by
  have hspan := spanDigits_append (fun _ => isDigit_of_mem_toDigits (n := m)) hr
  rw [h, spanDigits_append (fun _ => isDigit_of_mem_toDigits) hr'] at hspan
  obtain ⟨hdigits, hrest⟩ := Prod.mk.inj hspan
  exact ⟨toDigits_injective hdigits.symm, hrest.symm⟩

/-- The text of an integer is a dash if it is negative, and the digits of its size. -/
theorem toList_toString (n : Int) :
    (toString n).toList = (if n < 0 then ['-'] else []) ++ Nat.toDigits 10 n.natAbs := by
  rw [Int.toString_eq_repr, Int.repr_eq_if]
  by_cases hn : n < 0
  · have habs : (-n).toNat = n.natAbs := by omega
    rw [if_neg (by omega), if_pos hn, habs, String.toList_append, Nat.toList_repr]
    rfl
  · have habs : n.toNat = n.natAbs := by omega
    rw [if_pos (by omega), if_neg hn, habs, Nat.toList_repr]
    rfl

/-- No digits begin with a dash. -/
theorem toDigits_append_ne_dash (n : Nat) (r r' : List Char) :
    Nat.toDigits 10 n ++ r ≠ '-' :: r' := by
  obtain ⟨c, cs, hdigits⟩ := List.exists_cons_of_ne_nil (Nat.toDigits_ne_nil (n := n) (b := 10))
  have hc : c.isDigit = true := isDigit_of_mem_toDigits (hdigits ▸ List.mem_cons_self)
  intro h
  rw [hdigits, List.cons_append] at h
  rw [(List.cons.inj h).1] at hc
  cases hc

/-- An integer is told by its text, where no digit follows it. -/
theorem eq_of_toString_append {p q : Int} {r r' : List Char}
    (hr : ∀ c ∈ r.head?, c.isDigit = false) (hr' : ∀ c ∈ r'.head?, c.isDigit = false)
    (h : (toString p).toList ++ r = (toString q).toList ++ r') : p = q ∧ r = r' := by
  rw [toList_toString, toList_toString, List.append_assoc, List.append_assoc] at h
  by_cases hp : p < 0
  · by_cases hq : q < 0
    · rw [if_pos hp, if_pos hq] at h
      obtain ⟨habs, hrest⟩ := eq_of_toDigits_append hr hr' (List.cons.inj h).2
      exact ⟨by omega, hrest⟩
    · rw [if_pos hp, if_neg hq] at h
      exact absurd h.symm (toDigits_append_ne_dash _ _ _)
  · by_cases hq : q < 0
    · rw [if_neg hp, if_pos hq] at h
      exact absurd h (toDigits_append_ne_dash _ _ _)
    · rw [if_neg hp, if_neg hq] at h
      obtain ⟨habs, hrest⟩ := eq_of_toDigits_append hr hr' h
      exact ⟨by omega, hrest⟩

/-- Different integers have different texts. -/
theorem toString_injective {p q : Int} (h : toString p = toString q) : p = q := by
  have hnil : ∀ c ∈ ([] : List Char).head?, c.isDigit = false := fun _ hc => by cases hc
  exact (eq_of_toString_append hnil hnil (by rw [h])).1

/-- Digits end at a dash. -/
theorem isDigit_of_dash (r : List Char) : ∀ c ∈ ('-' :: r).head?, c.isDigit = false := by
  intro c hc
  cases hc
  rfl

/-- A number that needs more than one digit does not begin with a zero. -/
theorem toDigits_eq_zero_cons {n : Nat} {cs : List Char} (h : Nat.toDigits 10 n = '0' :: cs) :
    cs = [] := by
  induction n using Nat.strongRecOn generalizing cs with
  | ind n ih =>
    by_cases hn : n < 10
    · rw [Nat.toDigits_of_lt_base hn] at h
      exact (List.cons.inj h).2.symm
    · have hsplit := Nat.toDigits_of_base_le (b := 10) (n := n) (by decide) (by omega)
      rw [hsplit] at h
      obtain ⟨ds, hds⟩ : ∃ ds, Nat.toDigits 10 (n / 10) = '0' :: ds := by
        rcases hhead : Nat.toDigits 10 (n / 10) with _ | ⟨c, ds⟩
        · exact absurd hhead Nat.toDigits_ne_nil
        · rw [hhead] at h
          obtain rfl : c = '0' := (List.cons.inj h).1
          exact ⟨ds, rfl⟩
      have hnil := ih (n / 10) (by omega) hds
      -- so a tenth of the number is written as a zero, and it is at least one
      have hvalue := digitsValue_toDigits (n / 10)
      rw [hds, hnil] at hvalue
      have hzero : n / 10 = 0 := hvalue.symm
      omega

/-- A digit has its value. -/
theorem digitValue_digitChar {n : Nat} (h : n < 10) : digitValue (Nat.digitChar n) = n := by
  interval_cases n <;> rfl

/-- It is a digit. -/
theorem isDigit_digitChar {n : Nat} (h : n < 10) : (Nat.digitChar n).isDigit = true := by
  interval_cases n <;> rfl

end Number

namespace Timestamp

open Number

/-- One place is one digit. -/
theorem padded_one {n : Nat} (h : n < 10) : padded 1 n = [Nat.digitChar n] := by
  unfold padded
  rw [Nat.toDigits_of_lt_base h]
  rfl

/-- A number of at least two digits is its tenth and one digit more. -/
theorem padded_succ (width n : Nat) :
    padded (width + 2) n = padded (width + 1) (n / 10) ++ [Nat.digitChar (n % 10)] := by
  unfold padded
  by_cases hn : n < 10
  · rw [Nat.toDigits_of_lt_base hn, Nat.div_eq_of_lt hn, Nat.mod_eq_of_lt hn, Nat.toDigits_zero]
    simp [← List.replicate_succ']
  · rw [Nat.toDigits_of_base_le (b := 10) (n := n) (by decide) (by omega)]
    simp

/-- All places are digits. -/
theorem isDigit_of_mem_padded {width n : Nat} {c : Char} (h : c ∈ padded width n) :
    c.isDigit = true := by
  unfold padded at h
  rcases List.mem_append.mp h with h | h
  · rw [List.eq_of_mem_replicate h]
    rfl
  · exact isDigit_of_mem_toDigits h

/-- A number that fits has as many places as it is padded to. -/
theorem length_padded {width n : Nat} (h : n < 10 ^ (width + 1)) :
    (padded (width + 1) n).length = width + 1 := by
  have hlength := (Nat.length_toDigits_le_iff (b := 10) (n := n) (by decide)
    (Nat.succ_pos width)).mpr h
  unfold padded
  rw [List.length_append, List.length_replicate]
  omega

/-- The places of a number have its value. -/
theorem digitsValue_padded {width n : Nat} : digitsValue (padded width n) = n := by
  rw [digitsValue_eq]
  unfold padded
  rw [Nat.ofDigitChars_append, Nat.ofDigitChars_replicate_zero, Nat.mul_zero,
    Nat.ofDigitChars_ten_toDigits]

/-- The two places of a number below a hundred. -/
theorem padded_two {n : Nat} (h : n < 100) :
    padded 2 n = [Nat.digitChar (n / 10), Nat.digitChar (n % 10)] := by
  rw [padded_succ, padded_one (by omega)]
  rfl

/-- The four places of a number below ten thousand. -/
theorem padded_four {n : Nat} (h : n < 10000) :
    padded 4 n = [Nat.digitChar (n / 1000), Nat.digitChar (n / 100 % 10),
      Nat.digitChar (n / 10 % 10), Nat.digitChar (n % 10)] := by
  rw [padded_succ, padded_succ, padded_two (by omega)]
  simp [Nat.div_div_eq_div_mul]

/-- Two digits are read as tens and ones. -/
theorem twoDigits?_digitChar {a b : Nat} (ha : a < 10) (hb : b < 10) :
    twoDigits? (Nat.digitChar a) (Nat.digitChar b) = some (10 * a + b) := by
  unfold twoDigits?
  rw [isDigit_digitChar ha, isDigit_digitChar hb, digitValue_digitChar ha,
    digitValue_digitChar hb]
  rfl

end Timestamp

end EventRelay
