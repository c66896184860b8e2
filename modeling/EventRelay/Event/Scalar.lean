import EventRelay.Number.Decimal
import EventRelay.Problem
import EventRelay.Text.Blank

/-!
# Lenient scalars

Reading of integers, numbers and truth values from text, as settings and event fields allow
them.  An integer may be padded with blanks and leading zeros, have a sign, single underscores
between its digits and a fraction of zeros.
-/

namespace EventRelay.Scalar

/-- The longest numeral that is converted, its sign included. -/
def longestInteger : Nat := 4300

/-- Reads a plain integer: an optional minus sign and digits without a leading zero.  A numeral
that is too long is refused before anything is said about what follows it. -/
def plainInteger (cs : List Char) : Except Fault Int :=
  let (negative, r) := match cs with
    | '-' :: r => (true, r)
    | r => (false, r)
  let (digits, rest) := Number.spanDigits r
  match digits with
  | [] => .error .unreadableInteger
  | '0' :: _ :: _ => .error .unreadableInteger
  | _ =>
    if longestInteger < digits.length + (if negative then 1 else 0) then .error .oversizedInteger
    else if rest = [] then .ok (Number.signed negative (Number.digitsValue digits))
    else .error .unreadableInteger

/-- Drops zeros in front of a number, together with the underscores among them, but not the last
zero before a point or the end.  What follows the zeros begins with a digit or a minus sign. -/
def dropZeros (cs : List Char) : Option (List Char) :=
  match cs with
  | '0' :: r =>
    let rest := r.dropWhile fun c => c = '0' || c = '_'
    match rest with
    | [] => some (cs.drop (cs.length - 1))
    | c :: _ =>
      if c.isDigit || c = '-' then some rest
      else if c = '.' then some (cs.drop (cs.length - rest.length - 1))
      else none
  | c :: _ => if c.isDigit then some cs else none
  | [] => none

/-- Drops a point and the zeros after it; there is at least one zero, and nothing else follows
the point. -/
def dropFraction (cs : List Char) : List Char :=
  match cs.dropWhile (· ≠ '.') with
  | _ :: '0' :: zeros => if zeros.all (· = '0') then cs.takeWhile (· ≠ '.') else cs
  | _ => cs

/-- Whether every underscore stands alone between two other characters. -/
def separatesOnly : List Char → Bool
  | [] => true
  | ['_'] => false
  | '_' :: '_' :: _ => false
  | _ :: r => separatesOnly r

/-- Removes underscores that separate digits; misplaced ones are left. -/
def dropUnderscores (cs : List Char) : List Char :=
  if cs.head? ≠ some '_' && separatesOnly cs then cs.filter (· ≠ '_') else cs

/-- Takes the sign off a leniently written integer; the flag tells a minus.  There is one sign
at most. -/
def takeSign? : List Char → Option (Bool × List Char)
  | '+' :: '-' :: _ => none
  | '-' :: '-' :: _ => none
  | '+' :: r => some (false, r)
  | '-' :: r => some (true, r)
  | cs => some (false, cs)

/-- The magnitude of a leniently written integer in the plain form, with its sign aside. -/
def tidyInteger? (cs : List Char) : Option (Bool × List Char) :=
  (takeSign? (Text.trim cs)).bind fun (negative, cs) =>
    (dropZeros cs).map fun cs => (negative, dropUnderscores (dropFraction cs))

/-- Reads an integer in the lenient form. -/
def lenientInteger? (cs : List Char) : Option Int :=
  match tidyInteger? cs with
  | some (true, '-' :: _) => none
  | some (negative, magnitude) =>
    match plainInteger magnitude with
    | .ok n => some (if negative then -n else n)
    | .error _ => none
  | none => none

/-- Reads an integer from text.  Only a text that is plain but for its length is refused as too
long; what has to be tidied first is then readable or not. -/
def integer (s : String) : Except Fault Int :=
  match plainInteger s.toList with
  | .error .oversizedInteger => .error .oversizedInteger
  | .ok n => .ok n
  | .error _ =>
    match lenientInteger? s.toList with
    | some n => .ok n
    | none => .error .unreadableInteger

/-- Whether two texts are equal up to the case of ASCII letters. -/
def sameWord (cs : List Char) (word : String) : Bool := cs.map Char.toLower == word.toList

/-- Reads a number in decimal notation or one of the words for infinity and the undefined. -/
def numeral? (cs : List Char) : Option Float :=
  let (negative, r) := Number.spanSign cs
  if sameWord r "inf" || sameWord r "infinity" then
    some (if negative then -1.0 / 0.0 else 1.0 / 0.0)
  else if sameWord r "nan" then some (0.0 / 0.0)
  else (Number.Decimal.read? cs).map (·.toFloat)

/-- Reads a number from text. -/
def number (s : String) : Except Fault Float :=
  let cs := Text.trim s.toList
  match numeral? cs with
  | some x => .ok x
  | none =>
    match numeral? (dropUnderscores s.toList) with
    | some x => .ok x
    | none => .error .unreadableNumber

/-- The words for true. -/
def trueWords : List String := ["1", "on", "t", "true", "y", "yes"]

/-- The words for false. -/
def falseWords : List String := ["0", "off", "f", "false", "n", "no"]

/-- Reads a truth value from text, in any case of letters. -/
def bool (s : String) : Except Fault Bool :=
  let cs := s.toList
  if trueWords.any (sameWord cs) then .ok true
  else if falseWords.any (sameWord cs) then .ok false
  else .error .unreadableBool

/-- The least integer of 64 bits. -/
def leastWord : Int := -9223372036854775808

/-- The greatest integer of 64 bits. -/
def greatestWord : Int := 9223372036854775807

/-- Whether an integer fits into 64 bits. -/
def fitsWord (n : Int) : Bool := leastWord ≤ n && n ≤ greatestWord

/-- The integer that a number without fraction is. -/
def integerOfFloat (x : Float) : Except Fault Int :=
  if x.isNaN || x.isInf then .error .infiniteNumber
  else if !(x.floor == x) then .error .fractionalInteger
  else if -9.223372036854775808e18 < x && x < 9.223372036854775807e18 then
    .ok (if x < 0.0 then -((-x).toUInt64.toNat : Int) else x.toUInt64.toNat)
  else .error .oversizedInteger

end EventRelay.Scalar
