import EventRelay.Number.Dyadic

/-!
# Decimal numerals

Reading of decimal numerals with an optional fraction and exponent, as settings and documents
carry them, and their value as a floating-point number.

`Decimal.toFloat` rounds correctly; numerals far outside the range of floating-point numbers
are sent to infinity or zero without computing their powers of ten.
-/

namespace EventRelay.Number

/-- A decimal numeral: a sign, the digits as one natural number, and a power of ten. -/
structure Decimal where
  /-- Whether the numeral starts with a minus sign. -/
  negative : Bool
  /-- All digits before and after the point. -/
  digits : Nat
  /-- The power of ten that scales the digits. -/
  exponent : Int
deriving Repr, DecidableEq

/-- The value of one ASCII digit. -/
def digitValue (c : Char) : Nat := c.toNat - 48

/-- The number that a run of ASCII digits denotes. -/
def digitsValue (cs : List Char) : Nat := cs.foldl (fun n c => 10 * n + digitValue c) 0

/-- Splits off the leading ASCII digits. -/
def spanDigits (cs : List Char) : List Char × List Char :=
  (cs.takeWhile Char.isDigit, cs.dropWhile Char.isDigit)

/-- Splits off an optional sign; the flag tells a minus. -/
def spanSign : List Char → Bool × List Char
  | '-' :: r => (true, r)
  | '+' :: r => (false, r)
  | cs => (false, cs)

/-- The integer with the given sign. -/
def signed (negative : Bool) (n : Nat) : Int := if negative then -(n : Int) else n

/-- Reads an optional exponent: a letter `e`, an optional sign, and digits up to the end. -/
def exponent? : List Char → Option Int
  | [] => some 0
  | c :: r =>
    if c = 'e' ∨ c = 'E' then
      let (negative, r) := spanSign r
      match spanDigits r with
      | ([], _) => none
      | (ds, []) => some (signed negative (digitsValue ds))
      | (_, _ :: _) => none
    else none

/-- Reads a whole text as a decimal numeral: an optional sign, digits with an optional point
(at least one digit in all), and an optional exponent. -/
def Decimal.read? (cs : List Char) : Option Decimal :=
  let (negative, r) := spanSign cs
  let (whole, r) := spanDigits r
  let (fraction, r) := match r with
    | '.' :: r => spanDigits r
    | r => ([], r)
  if whole = [] ∧ fraction = [] then none
  else (exponent? r).map fun e =>
    ⟨negative, digitsValue (whole ++ fraction), e - fraction.length⟩

namespace Decimal

/-- The magnitude as a floating-point number. -/
def magnitude (d : Decimal) : Float :=
  if d.digits = 0 then 0.0
  else
    let size := (Nat.toDigits 10 d.digits).length + d.exponent
    if 400 < size then 1.0 / 0.0
    else if size < -400 then 0.0
    else if 0 ≤ d.exponent then Float.ofScientific d.digits false d.exponent.toNat
    else Float.ofScientific d.digits true (-d.exponent).toNat

/-- The nearest floating-point number. -/
def toFloat (d : Decimal) : Float := if d.negative then -d.magnitude else d.magnitude

/-- The number as a quotient. -/
def fraction (d : Decimal) : Fraction := .scaled (signed d.negative d.digits) 10 d.exponent

end Decimal

/-- A decimal, or one of the values that lie beyond all decimals. -/
inductive ExtendedDecimal where
  /-- A decimal. -/
  | finite (value : Decimal)
  /-- Infinity, with a sign. -/
  | infinite (negative : Bool)
  /-- No number; a signalling one may not be computed with at all. -/
  | undefined (signalling : Bool)
deriving DecidableEq, Repr

/-- The nearest floating-point number, if the value may be computed with. -/
def ExtendedDecimal.toFloat? : ExtendedDecimal → Option Float
  | finite d => some d.toFloat
  | infinite negative => some (if negative then -1.0 / 0.0 else 1.0 / 0.0)
  | undefined true => none
  | undefined false => some (0.0 / 0.0)

end EventRelay.Number
