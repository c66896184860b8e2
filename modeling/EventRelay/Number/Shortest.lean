/-!
# Fewest digits that read back

A binary floating-point number stands for every real that rounds to it.  The shortest decimal
is the one with the fewest digits among those reals, and of several with equally many digits
the one nearest to the number itself.

The search is exact: for one digit, two digits, and so on, it looks at the two neighbours of
the number on that decimal grid and takes the first grid with a neighbour inside the interval.
That no shorter decimal is missed follows from the order of the grids: if any point of a grid
lies in the interval, so does one of the two neighbours.
-/

namespace EventRelay.Number

/-- A positive binary fraction `mantissa * 2 ^ exponent`, as one floating-point number holds
it. -/
structure Binary where
  /-- The integer part of the significand. -/
  mantissa : Nat
  /-- The power of two that scales it. -/
  exponent : Int
  /-- Whether the next smaller number is only half as far away as the next larger one. -/
  narrowBelow : Bool
deriving Repr, DecidableEq

/-- A decimal fraction `digits * 10 ^ exponent`. -/
structure Digits where
  /-- The digits, read as one natural number. -/
  digits : Nat
  /-- The power of ten that scales them. -/
  exponent : Int
deriving Repr, DecidableEq

/-- A non-negative quotient, kept as it was written. -/
structure Quotient where
  /-- The numerator. -/
  num : Nat
  /-- The denominator, positive in every use. -/
  den : Nat

/-- The number `n * base ^ e`. -/
def Quotient.scaled (n base : Nat) (e : Int) : Quotient :=
  if 0 ≤ e then ⟨n * Nat.pow base e.toNat, 1⟩ else ⟨n, Nat.pow base (-e).toNat⟩

/-- Whether the first quotient is at most the second. -/
def Quotient.le (a b : Quotient) : Bool := a.num * b.den ≤ b.num * a.den

/-- Whether the first quotient is below the second. -/
def Quotient.lt (a b : Quotient) : Bool := a.num * b.den < b.num * a.den

namespace Binary

/-- The binary fraction in the bits of a positive finite double. -/
def ofBits (bits : UInt64) : Binary :=
  let biased : Nat := (bits.toNat / Nat.pow 2 52) % Nat.pow 2 11
  let fraction := bits.toNat % Nat.pow 2 52
  if biased = 0 then ⟨fraction, -1074, false⟩
  else ⟨fraction + Nat.pow 2 52, (biased : Int) - 1075, fraction = 0 && 1 < biased⟩

/-- The number itself. -/
def value (b : Binary) : Quotient := .scaled (4 * b.mantissa) 2 (b.exponent - 2)

/-- The lower end of the reals that round to the number. -/
def low (b : Binary) : Quotient :=
  .scaled (4 * b.mantissa - if b.narrowBelow then 1 else 2) 2 (b.exponent - 2)

/-- The upper end of the reals that round to the number. -/
def high (b : Binary) : Quotient := .scaled (4 * b.mantissa + 2) 2 (b.exponent - 2)

/-- Whether a decimal reads back as the number: it lies between the ends, and an end itself
belongs to the number whose mantissa is even. -/
def accepts (b : Binary) (d : Digits) : Bool :=
  let q := Quotient.scaled d.digits 10 d.exponent
  if b.mantissa % 2 = 0 then b.low.le q && q.le b.high else b.low.lt q && q.lt b.high

/-- The power of ten of the number's first digit. -/
def leading (b : Binary) : Int :=
  let v := b.value
  let magnified := v.num * Nat.pow 10 400 / v.den
  ((Nat.toDigits 10 magnified).length : Int) - 401

/-- The nearest decimal below or at the number with the given number of digits. -/
def below (b : Binary) (count : Nat) : Digits :=
  let e := b.leading - count + 1
  let v := b.value
  let unit := Quotient.scaled 1 10 e
  ⟨v.num * unit.den / (v.den * unit.num), e⟩

/-- Of two neighbouring decimals, both of which read back, the nearer one; of two equally near
the one whose last digit is even. -/
def nearer (b : Binary) (d : Digits) : Digits :=
  let above : Digits := ⟨d.digits + 1, d.exponent⟩
  let middle := Quotient.scaled (2 * d.digits + 1) 10 d.exponent
  let twice : Quotient := ⟨2 * b.value.num, b.value.den⟩
  if twice.lt middle then d
  else if middle.lt twice then above
  else if d.digits % 2 = 0 then d else above

/-- The decimal with the given number of digits that reads back, if there is one. -/
def onGrid? (b : Binary) (count : Nat) : Option Digits :=
  let d := b.below count
  let above : Digits := ⟨d.digits + 1, d.exponent⟩
  match b.accepts d, b.accepts above with
  | true, true => some (b.nearer d)
  | true, false => some d
  | false, true => some above
  | false, false => none

/-- The shortest decimal that reads back.  Seventeen digits always suffice for a double. -/
def shortest (b : Binary) : Digits :=
  ((List.range 17).findSome? fun n => b.onGrid? (n + 1)).getD (b.below 17)

end Binary

end EventRelay.Number
