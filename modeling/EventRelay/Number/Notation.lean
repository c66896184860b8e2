import EventRelay.Number.Decimal
import EventRelay.Text.Blank
import EventRelay.Text.DecimalDigit

/-!
# Numerals as people write them

Numerals given as text by a person: with blanks around them, in the digits of any script, and
with underscores that group the digits.  Three kinds are read, integers to a base,
floating-point numbers and decimals.

A decimal may have underscores anywhere; in the other two kinds an underscore stands between
two digits.
-/

namespace EventRelay.Number.Notation

/-- Whether the character may stand before and after a numeral. -/
def surrounds (c : Char) : Bool :=
  c = ' ' || (9 ≤ c.toNat && c.toNat ≤ 13) || (128 ≤ c.toNat && Text.isBlank c)

/-- Whether the character may stand before and after a decimal: the separators of records
may, too. -/
def surroundsDecimal (c : Char) : Bool :=
  surrounds c || (0x1c ≤ c.toNat && c.toNat ≤ 0x1f)

/-- The text without the characters of that kind at either end. -/
def trimmed (outer : Char → Bool) (cs : List Char) : List Char :=
  ((cs.dropWhile outer).reverse.dropWhile outer).reverse

/-- A digit of any script as the ASCII digit of the same value; other characters are kept. -/
def asciiDigit (c : Char) : Char :=
  match DecimalDigit.value? c with
  | some n => Char.ofNat (48 + n)
  | none => c

/-- Whether every underscore stands between two characters of that kind; the flag tells whether
such a character has just been passed. -/
def groups (digit : Char → Bool) : Bool → List Char → Bool
  | _, [] => true
  | after, '_' :: c :: r => after && digit c && groups digit true r
  | _, ['_'] => false
  | _, c :: r => groups digit (digit c) r

/-- The characters without the underscores. -/
def ungrouped (cs : List Char) : List Char := cs.filter (· ≠ '_')

/-! ## Integers -/

/-- The value of a digit to a base up to thirty-six. -/
def digitOf? (base : Nat) (c : Char) : Option Nat :=
  let n :=
    if c.isDigit then some (c.toNat - 48)
    else if c.isLower then some (c.toNat - 87)
    else if c.isUpper then some (c.toNat - 55)
    else none
  n.filter (· < base)

/-- Drops the mark of the base sixteen, with an underscore after it. -/
def dropMark (base : Nat) (cs : List Char) : List Char :=
  match cs with
  | '0' :: x :: '_' :: r => if base = 16 && (x = 'x' || x = 'X') then r else cs
  | '0' :: x :: r => if base = 16 && (x = 'x' || x = 'X') then r else cs
  | _ => cs

/-- Reads an integer to a base: its sign, and its digits. -/
def integerDigits? (base : Nat) (s : String) : Option (Bool × List Char) :=
  let cs := (trimmed surrounds s.toList).map asciiDigit
  let (negative, r) := spanSign cs
  let r := dropMark base r
  let isDigit := fun c => (digitOf? base c).isSome
  let digits := ungrouped r
  if digits = [] || !groups isDigit false r || !digits.all isDigit then none
  else some (negative, digits)

/-- The number that digits to a base denote. -/
def valueOf (base : Nat) (digits : List Char) : Nat :=
  digits.foldl (fun n c => base * n + (digitOf? base c).getD 0) 0

/-! ## Numbers with a fraction -/

/-- Whether two texts are equal up to the case of ASCII letters. -/
def isWord (word : String) (cs : List Char) : Bool := cs.map Char.toLower == word.toList

/-- Reads one of the words for infinity and the undefined, behind an optional sign. -/
def wordFloat? (cs : List Char) : Option Float :=
  let (negative, r) := spanSign cs
  if isWord "inf" r || isWord "infinity" r then
    some (if negative then -1.0 / 0.0 else 1.0 / 0.0)
  else if isWord "nan" r then some (0.0 / 0.0)
  else none

/-- Reads a floating-point number. -/
def float? (s : String) : Option Float :=
  let cs := (trimmed surrounds s.toList).map asciiDigit
  match wordFloat? cs with
  | some x => some x
  | none =>
    if groups Char.isDigit false cs then (Decimal.read? (ungrouped cs)).map (·.toFloat) else none

/-- Reads a value beyond the decimals: a word behind an optional sign.  What is no number may
carry digits that mean nothing. -/
def wordDecimal? (cs : List Char) : Option ExtendedDecimal :=
  let (negative, r) := spanSign cs
  let word := r.takeWhile fun c => !c.isDigit
  let digits := r.dropWhile fun c => !c.isDigit
  if isWord "inf" r || isWord "infinity" r then some (.infinite negative)
  else if !digits.all Char.isDigit then none
  else if isWord "nan" word then some (.undefined false)
  else if isWord "snan" word then some (.undefined true)
  else none

/-- Reads a decimal. -/
def decimal? (s : String) : Option ExtendedDecimal :=
  let cs := ungrouped ((trimmed surroundsDecimal s.toList).map asciiDigit)
  match wordDecimal? cs with
  | some d => some d
  | none => (Decimal.read? cs).map .finite

end EventRelay.Number.Notation
