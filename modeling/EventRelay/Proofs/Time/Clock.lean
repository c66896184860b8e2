import EventRelay.Time.Clock
import Mathlib.Algebra.Order.Ring.Int
import Mathlib.Tactic.SplitIfs

/-!
# Readings of the clock

The clock keeps a fixed number of binary digits, so the later the reading the coarser its grain.  A
reading is rounded to its grain.  Between two powers of two the grain is constant, and every power
of two is a whole number of every grain below it: rounding never goes past one.

* `Span.nearest_le_nearest`: rounding to one grain keeps the order.
* `Clock.round_le_round`, `Clock.round_round`: so does rounding to the grain of each reading, and it
  is done once.
* `Instant.le_after`: a wait does not end before it begins.
-/

namespace EventRelay

/-! ## The nearest multiple -/

namespace Span

/-- Rounding keeps the order. -/
theorem nearest_le_nearest {a b : Int} {d : Nat} (hd : 0 < d) (h : a ≤ b) :
    nearest a d ≤ nearest b d := by
  have hclose (n : Int) : Int.fdiv n d ≤ nearest n d ∧ nearest n d ≤ Int.fdiv n d + 1 := by
    unfold nearest
    dsimp only
    split_ifs <;> omega
  have hquotient : Int.fdiv a d ≤ Int.fdiv b d := by
    rw [Int.fdiv_eq_ediv_of_nonneg _ (by omega), Int.fdiv_eq_ediv_of_nonneg _ (by omega)]
    exact Int.ediv_le_ediv (by omega) h
  by_cases hsame : Int.fdiv a d = Int.fdiv b d
  · unfold nearest
    dsimp only
    rw [hsame]
    split_ifs <;> omega
  · have := (hclose a).2
    have := (hclose b).1
    omega

/-- A multiple is its own nearest. -/
theorem nearest_mul {d : Nat} (hd : 0 < d) (n : Int) : nearest (n * d) d = n := by
  have hquotient : Int.fdiv (n * d) d = n := Int.mul_fdiv_cancel n (by omega)
  unfold nearest
  simp only [hquotient, sub_self, mul_zero]
  rw [if_pos (by omega)]

end Span

/-! ## Grains -/

namespace Clock

/-- The power of two that a reading has reached. -/
def binade (x : Span) : Nat := Nat.log2 (x.toNat / Span.atom.toNat)

/-- The reading at which a power of two is reached. -/
def edge (k : Nat) : Span := 2 ^ k * Span.atom

variable {x y : Span} {k m : Nat}

/-- The grain of a reading is an edge, as many powers below as there are digits. -/
theorem grain_eq (x : Span) : (grain x : Int) = edge (binade x + 1 - digits) := by
  unfold grain edge binade
  push_cast
  exact Int.mul_comm _ _

/-- Edges are positive. -/
theorem edge_pos (k : Nat) : 0 < edge k := by
  have hatom : 0 < Span.atom := by decide
  exact Int.mul_pos (Int.pow_pos (by decide)) hatom

/-- Grains are positive. -/
theorem grain_pos (x : Span) : 0 < grain x := by
  have hpos := edge_pos (binade x + 1 - digits)
  rw [← grain_eq] at hpos
  exact Int.natCast_pos.mp hpos

/-- Every edge is a multiple of the lower ones. -/
theorem edge_dvd_edge (h : k ≤ m) : edge k ∣ edge m :=
  Int.mul_dvd_mul (pow_dvd_pow 2 h) (Int.dvd_refl _)

/-- The next edge is twice as high. -/
theorem edge_succ (k : Nat) : edge (k + 1) = 2 * edge k := by
  unfold edge
  rw [pow_succ', Int.mul_assoc]

/-- Edges grow. -/
theorem edge_lt_edge_succ (k : Nat) : edge k < edge (k + 1) := by
  have hpos := edge_pos k
  rw [edge_succ, Int.two_mul]
  exact Int.lt_add_of_pos_right _ hpos

/-- They are in the order of their powers. -/
theorem edge_lt_edge : edge k < edge m ↔ k < m :=
  (strictMono_nat_of_lt_succ edge_lt_edge_succ).lt_iff_lt

/-- The same with equality. -/
theorem edge_le_edge : edge k ≤ edge m ↔ k ≤ m :=
  (strictMono_nat_of_lt_succ edge_lt_edge_succ).le_iff_le

/-- An edge above a reading is a multiple of its grain. -/
theorem grain_dvd_edge (h : binade x ≤ k) : (grain x : Int) ∣ edge k := by
  rw [grain_eq]
  refine edge_dvd_edge ?_
  unfold digits
  omega

/-- A reading lies below the next power of two. -/
theorem lt_edge (x : Span) : x < edge (binade x + 1) := by
  have hquotient : x.toNat / Span.atom.toNat < 2 ^ (binade x + 1) := Nat.lt_log2_self
  have hnat : x.toNat < 2 ^ (binade x + 1) * Span.atom.toNat :=
    (Nat.div_lt_iff_lt_mul (by decide)).mp hquotient
  have hcast := Int.ofNat_lt.mpr hnat
  push_cast at hcast
  exact Int.lt_of_le_of_lt (Int.self_le_toNat x) hcast

/-- It has reached its own. -/
theorem edge_le (h : binade x ≠ 0) : edge (binade x) ≤ x := by
  have hquotient : x.toNat / Span.atom.toNat ≠ 0 := by
    intro hzero
    exact h (by rw [binade, hzero]; rfl)
  have hreached : 2 ^ binade x ≤ x.toNat / Span.atom.toNat := Nat.log2_self_le hquotient
  have hnat : 2 ^ binade x * Span.atom.toNat ≤ x.toNat :=
    (Nat.le_div_iff_mul_le (by decide)).mp hreached
  have hpositive : 0 < x.toNat := Nat.pos_of_ne_zero fun hzero => hquotient (by rw [hzero]; rfl)
  have hcast := Int.ofNat_le.mpr hnat
  push_cast at hcast
  rwa [Int.toNat_of_nonneg (Int.le_of_lt (Int.pos_iff_toNat_pos.mpr hpositive))] at hcast

/-- A later reading has reached no lower power. -/
theorem binade_le_binade (h : x ≤ y) : binade x ≤ binade y := by
  by_cases hx : binade x = 0
  · rw [hx]
    exact Nat.zero_le _
  · have hbelow : edge (binade x) < edge (binade y + 1) :=
      Int.lt_of_le_of_lt (Int.le_trans (edge_le hx) h) (lt_edge y)
    exact Nat.le_of_lt_succ (edge_lt_edge.mp hbelow)

/-! ## Rounding -/

/-- A rounded reading is a multiple of the grain. -/
theorem grain_dvd_round (x : Span) : (grain x : Int) ∣ round x := Int.dvd_mul_left _ _

/-- A whole number of grains is left alone. -/
theorem nearest_grain {z : Span} (h : (grain x : Int) ∣ z) :
    Span.nearest z (grain x) * grain x = z := by
  obtain ⟨n, rfl⟩ := h
  rw [Int.mul_comm (grain x : Int) n, Span.nearest_mul (grain_pos x)]

/-- Rounding goes up to no further than the next multiple. -/
theorem round_le_of_dvd {z : Span} (hle : x ≤ z) (h : (grain x : Int) ∣ z) : round x ≤ z := by
  rw [← nearest_grain h]
  exact Int.mul_le_mul_of_nonneg_right (Span.nearest_le_nearest (grain_pos x) hle)
    (Int.natCast_nonneg _)

/-- Rounding goes down to no further than the one before. -/
theorem le_round_of_dvd {z : Span} (hle : z ≤ x) (h : (grain x : Int) ∣ z) : z ≤ round x := by
  rw [← nearest_grain h]
  exact Int.mul_le_mul_of_nonneg_right (Span.nearest_le_nearest (grain_pos x) hle)
    (Int.natCast_nonneg _)

/-- Rounding keeps the order of readings, also across powers. -/
theorem round_le_round (h : x ≤ y) : round x ≤ round y := by
  rcases Nat.lt_or_eq_of_le (binade_le_binade h) with hlt | heq
  · -- a power of two lies in between, and neither goes past it
    have hy : binade y ≠ 0 := Nat.ne_of_gt (Nat.zero_lt_of_lt hlt)
    calc round x ≤ edge (binade x + 1) :=
          round_le_of_dvd (Int.le_of_lt (lt_edge x)) (grain_dvd_edge (Nat.le_succ _))
      _ ≤ edge (binade y) := edge_le_edge.mpr hlt
      _ ≤ round y := le_round_of_dvd (edge_le hy) (grain_dvd_edge (Nat.le_refl _))
  · have hgrain : grain x = grain y := by
      have hcast : (grain x : Int) = grain y := by
        rw [grain_eq, grain_eq, heq]
      exact Int.ofNat_inj.mp hcast
    unfold round
    rw [hgrain]
    exact Int.mul_le_mul_of_nonneg_right (Span.nearest_le_nearest (grain_pos y) h)
      (Int.natCast_nonneg _)

/-- A reading that is rounded is a whole number of its own grains. -/
theorem grain_round_dvd_round (x : Span) : (grain (round x) : Int) ∣ round x := by
  by_cases hsame : binade (round x) ≤ binade x
  · have hfiner : (grain (round x) : Int) ∣ grain x := by
      rw [grain_eq, grain_eq]
      exact edge_dvd_edge (Nat.sub_le_sub_right (Nat.succ_le_succ hsame) _)
    exact Int.dvd_trans hfiner (grain_dvd_round x)
  · -- it was rounded up to the next power of two
    have hover : binade x + 1 ≤ binade (round x) := Nat.lt_of_not_le hsame
    have hle : round x ≤ edge (binade x + 1) :=
      round_le_of_dvd (Int.le_of_lt (lt_edge x)) (grain_dvd_edge (Nat.le_succ _))
    have hge : edge (binade (round x)) ≤ round x := edge_le (by omega)
    have heq : round x = edge (binade x + 1) :=
      Int.le_antisymm hle (Int.le_trans (edge_le_edge.mpr hover) hge)
    have hwithin : binade (round x) ≤ binade x + 1 :=
      edge_le_edge.mp (Int.le_trans hge hle)
    have hdvd : (grain (round x) : Int) ∣ edge (binade x + 1) := grain_dvd_edge hwithin
    rwa [← heq] at hdvd

/-- What is rounded stays as it is. -/
theorem round_round (x : Span) : round (round x) = round x :=
  nearest_grain (grain_round_dvd_round x)

end Clock

/-! ## Waits -/

namespace Instant

/-- The clock can show this instant. -/
def IsShown (i : Instant) : Prop := Clock.round i.reading = i.reading

/-- The clock can show the origin. -/
theorem isShown_origin : origin.IsShown := by
  unfold IsShown
  decide

/-- A later instant reads as the rounded sum. -/
theorem reading_after (now : Instant) (span : Span) :
    (now.after span).reading = Clock.round (now.reading + span) := by
  have hshift (o s r : Int) : o - s + r - o + s = r := by
    omega
  exact hshift origin Clock.start _

/-- The clock can show it. -/
theorem isShown_after (now : Instant) (span : Span) : (now.after span).IsShown := by
  unfold IsShown
  rw [reading_after, Clock.round_round]

/-- A wait does not end before it begins. -/
theorem le_after {now : Instant} {span : Span} (hnow : now.IsShown) (hspan : 0 ≤ span) :
    now ≤ now.after span := by
  have hlater : now.reading ≤ now.reading + span := Int.le_add_of_nonneg_right hspan
  have hreading : now.reading ≤ (now.after span).reading := by
    rw [reading_after]
    exact hnow.symm.le.trans (Clock.round_le_round hlater)
  exact Int.le_of_sub_le_sub_right (Int.le_of_add_le_add_right hreading)

end Instant

end EventRelay
