import EventRelay.Number.Shortest

/-!
# Text of floating-point numbers

A floating-point number is written with the fewest digits that read back.  Numbers of moderate
size are written positionally and always show a fractional part; very large and very small ones
are written with an exponent of at least two digits and a sign.

What differs between uses is gathered in one record, `FloatStyle`: where positional notation
ends, and the words for what is not a number.
-/

namespace EventRelay.Number

/-- The decisions of a written form of floating-point numbers. -/
structure FloatStyle where
  /-- The least power of ten of the first digit that is still written positionally. -/
  leastPositional : Int
  /-- The first power of ten of the first digit that is written with an exponent. -/
  firstScientific : Int
  /-- The word for infinity. -/
  infinity : String
  /-- The word for a result that is no number. -/
  undefinedWord : String

/-- Numbers as the program reports them. -/
def FloatStyle.plain : FloatStyle := ⟨-4, 16, "inf", "nan"⟩

/-- Numbers inside documents of structured data. -/
def FloatStyle.document : FloatStyle := ⟨-4, 16, "Infinity", "NaN"⟩

/-- Drops the zeros at the end of the digits, moving them into the exponent. -/
def Digits.trim (d : Digits) : Digits :=
  let cs := (Nat.toDigits 10 d.digits).reverse
  let zeros := (cs.takeWhile (· = '0')).length
  if d.digits = 0 then ⟨0, 0⟩ else ⟨d.digits / Nat.pow 10 zeros, d.exponent + zeros⟩

/-- The exponent part: a sign and at least two digits. -/
def exponentText (e : Int) : String :=
  let digits := toString e.natAbs
  (if e < 0 then "e-" else "e+") ++ (if digits.length < 2 then "0" ++ digits else digits)

/-- Digits with a point after the given number of places, filled up with zeros on either side;
at least one digit stands on each side of the point. -/
def pointed (digits : List Char) (places : Int) : String :=
  if places ≤ 0 then
    "0." ++ String.ofList (List.replicate (-places).toNat '0' ++ digits)
  else
    let whole := digits.take places.toNat
    let rest := digits.drop places.toNat
    let fill := List.replicate (places.toNat - digits.length) '0'
    String.ofList (whole ++ fill) ++ "." ++ (if rest = [] then "0" else String.ofList rest)

/-- The written form of a decimal in a style. -/
def FloatStyle.render (style : FloatStyle) (d : Digits) : String :=
  let d := d.trim
  let digits := Nat.toDigits 10 d.digits
  let leading := d.exponent + digits.length - 1
  if style.leastPositional ≤ leading && leading < style.firstScientific then
    pointed digits (leading + 1)
  else
    match digits with
    | [c] => String.ofList [c] ++ exponentText leading
    | c :: rest => String.ofList (c :: '.' :: rest) ++ exponentText leading
    | [] => ""

/-- The written form of a floating-point number in a style. -/
def FloatStyle.text (style : FloatStyle) (x : Float) : String :=
  let bits := x.toBits
  if x.isNaN then style.undefinedWord
  else
    let sign := if bits.toNat / Nat.pow 2 63 = 1 then "-" else ""
    if x.isInf then sign ++ style.infinity
    else
      let magnitude := bits.toNat % Nat.pow 2 63
      if magnitude = 0 then sign ++ "0.0"
      else sign ++ style.render (Binary.ofBits magnitude.toUInt64).shortest

end EventRelay.Number
