import EventRelay.Number.Notation
import EventRelay.Payload.Value
import EventRelay.Store.Row

/-!
# Values given as text

A payload may be described in a document, which has no form of its own for most of the values:
those are given as text, in the notation of their type.
-/

namespace EventRelay

/-- The types of values that are given as text. -/
inductive Notation where
  /-- Floating-point numbers. -/
  | float
  /-- Integers. -/
  | integer
  /-- Unique identifiers. -/
  | identifier
  /-- Dates with a time of day. -/
  | moment
  /-- Dates alone. -/
  | date
  /-- Decimals. -/
  | decimal
  /-- Raw bytes, two hexadecimal digits each. -/
  | bytes
  /-- The states of a task. -/
  | taskStatus
deriving DecidableEq, Repr

namespace Notation

/-- The greatest number of decimal digits that are read. -/
def digitsLimit : Nat := 4300

/-- Reads an integer. -/
def readInteger (s : String) : Except Failure Int :=
  match Number.Notation.integerDigits? 10 s with
  | none => .error (.unreadableValue (.integer 10 s))
  | some (negative, digits) =>
    if digitsLimit < digits.length then .error (.numeralTooLong digits.length)
    else .ok (Number.signed negative (Number.Notation.valueOf 10 digits))

/-- Removes a part from a text wherever it stands. -/
def without (part : String) (cs : List Char) : List Char :=
  ("".intercalate ((String.ofList cs).splitOn part)).toList

/-- Whether the character may surround the digits of an identifier. -/
def isBrace (c : Char) : Bool := c = '\x7b' || c = '\x7d'

/-- The hexadecimal digits of an identifier, without the marks and dashes among them. -/
def identifierDigits (s : String) : List Char :=
  let bare := without "uuid:" (without "urn:" s.toList)
  (Number.Notation.trimmed isBrace bare).filter (· ≠ '-')

/-- The number in hexadecimal digits, filled up to thirty-two. -/
def hexadecimal (n : Nat) : String :=
  let digits := Nat.toDigits 16 n
  String.ofList (List.replicate (32 - digits.length) '0' ++ digits)

/-- Reads an identifier. -/
def readIdentifier (s : String) : Except Failure String :=
  let digits := identifierDigits s
  if digits.length ≠ 32 then .error (.unreadableValue .identifierLength)
  else
    match Number.Notation.integerDigits? 16 (String.ofList digits) with
    | none => .error (.unreadableValue (.integer 16 (String.ofList digits)))
    | some (negative, digits) =>
      let n := Number.Notation.valueOf 16 digits
      if negative && n ≠ 0 then .error (.unreadableValue .identifierRange)
      else .ok (hexadecimal n)

/-- Reads bytes, with blanks allowed between them; the position is where the text begins. -/
def readBytes : Nat → List Char → Except Failure (List UInt8)
  | _, [] => .ok []
  | position, a :: r =>
    if a = ' ' || (9 ≤ a.toNat && a.toNat ≤ 13) then readBytes (position + 1) r
    else
      match Json.hexValue? a with
      | none => .error (.unreadableValue (.bytes position))
      | some hi =>
        match r with
        | [] => .error (.unreadableValue (.bytes (position + 1)))
        | b :: r =>
          match Json.hexValue? b with
          | none => .error (.unreadableValue (.bytes (position + 1)))
          | some lo => (readBytes (position + 2) r).map ((16 * hi + lo).toUInt8 :: ·)

/-- Reads a moment or a date, whose faults are faults of the notation. -/
def dated {α : Type} : Except IsoFault α → Except Failure α
  | .ok a => .ok a
  | .error fault => .error (.unreadableValue (.moment fault))

/-- The value that a text denotes in a notation. -/
def read : Notation → String → Except Failure Value
  | float, s =>
    match Number.Notation.float? s with
    | some x => .ok (.float x)
    | none => .error (.unreadableValue (.float s))
  | integer, s => (readInteger s).map .int
  | identifier, s => (readIdentifier s).map .uuid
  | moment, s => (dated (Timestamp.ofIsoNotation s)).map .moment
  | date, s => (dated (Date.ofIsoNotation s)).map .date
  | decimal, s =>
    match Number.Notation.decimal? s with
    | some d => .ok (.decimal d)
    | none => .error (.unreadableValue .decimal)
  | bytes, s => (readBytes 0 s.toList).map .bytes
  | taskStatus, s =>
    if (TaskStatus.ofWord? s).isSome then .ok (.text s)
    else .error (.noSuchStatus s "TaskStatus")

end Notation

end EventRelay
