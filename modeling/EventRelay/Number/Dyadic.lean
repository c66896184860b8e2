/-!
# Exact values of floating-point numbers

A finite floating-point number is an integer times a power of two.  This module reads that form
off its bits, and says when such a number equals another one written in tenths: the comparison
is of integers and rounds nothing.
-/

namespace EventRelay.Number

/-- The number `mantissa * 2 ^ exponent`. -/
structure Dyadic where
  /-- The significand with its sign. -/
  mantissa : Int
  /-- The power of two that scales it. -/
  exponent : Int
deriving DecidableEq, Repr

/-- A quotient of an integer by a natural number, which is positive in every use. -/
structure Fraction where
  /-- The numerator. -/
  num : Int
  /-- The denominator. -/
  den : Nat
deriving DecidableEq, Repr

namespace Fraction

/-- The number `n * base ^ e`. -/
def scaled (n : Int) (base : Nat) (e : Int) : Fraction :=
  if 0 ≤ e then ⟨n * Nat.pow base e.toNat, 1⟩ else ⟨n, Nat.pow base (-e).toNat⟩

/-- Whether two quotients are the same number. -/
def same (a b : Fraction) : Bool := a.num * b.den == b.num * a.den

end Fraction

namespace Dyadic

/-- The exact value of a floating-point number that is finite. -/
def ofFloat? (x : Float) : Option Dyadic :=
  let bits := x.toBits.toNat
  let biased : Nat := bits / Nat.pow 2 52 % Nat.pow 2 11
  let fraction := bits % Nat.pow 2 52
  let size : Nat := if biased = 0 then fraction else fraction + Nat.pow 2 52
  if biased = 2047 then none
  else some ⟨if bits / Nat.pow 2 63 = 1 then -size else size, (max biased 1 : Nat) - 1075⟩

/-- The number as a quotient. -/
def fraction (d : Dyadic) : Fraction := .scaled d.mantissa 2 d.exponent

end Dyadic

end EventRelay.Number
