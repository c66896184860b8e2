import EventRelay.Text.Utf8

/-!
# Encodings of documents

A document arrives as bytes.  A mark in front of it may say how they encode its text; without one,
the zero bytes among the first four give the encoding away, as a document begins with an ASCII
character.

Half of a pair of code units stands for no character; alone it is read as the replacement
character.  All other bytes that encode no text are an `EncodingFault`.
-/

namespace EventRelay.Text

/-- How text is encoded in bytes. -/
inductive Encoding where
  /-- In units of one byte. -/
  | utf8
  /-- In units of two bytes; the flag tells whether the greater byte comes first. -/
  | utf16 (big : Bool)
  /-- In units of four bytes. -/
  | utf32 (big : Bool)
deriving DecidableEq, Repr

/-- The name of an encoding. -/
def Encoding.name : Encoding → String
  | utf8 => "utf-8"
  | utf16 big => if big then "utf-16-be" else "utf-16-le"
  | utf32 big => if big then "utf-32-be" else "utf-32-le"

/-- What is wrong with bytes. -/
inductive EncodingError where
  /-- No character begins with this byte. -/
  | invalidStart
  /-- A byte follows that does not continue the character. -/
  | invalidContinuation
  /-- The text ends within a character of several bytes. -/
  | incomplete
  /-- The text ends within a unit. -/
  | truncated
  /-- The unit is greater than every character. -/
  | outOfRange
deriving DecidableEq, Repr

/-- The wording of the error. -/
def EncodingError.message : EncodingError → String
  | invalidStart => "invalid start byte"
  | invalidContinuation => "invalid continuation byte"
  | incomplete => "unexpected end of data"
  | truncated => "truncated data"
  | outOfRange => "code point not in range(0x110000)"

/-- Why bytes encode no text. -/
structure EncodingFault where
  /-- The encoding that they should be in. -/
  encoding : Encoding
  /-- The position of the first byte at fault. -/
  position : Nat
  /-- The bytes at fault. -/
  bytes : List UInt8
  /-- What is wrong with them. -/
  error : EncodingError
deriving DecidableEq, Repr

/-- A byte as two hexadecimal digits. -/
def byteText (b : UInt8) : String :=
  String.ofList ((if b < 16 then ['0'] else []) ++ Nat.toDigits 16 b.toNat)

/-- The wording of the fault. -/
def EncodingFault.message (f : EncodingFault) : String :=
  let place := match f.bytes with
    | [b] => s!"byte 0x{byteText b} in position {f.position}"
    | bs => s!"bytes in position {f.position}-{f.position + bs.length - 1}"
  s!"'{f.encoding.name}' codec can't decode {place}: {f.error.message}"

/-- The marks that may stand in front of a document, with the encodings that they stand for.  One
begins with another, so the longer ones come first. -/
def marks : List (List UInt8 × Encoding) :=
  [([0x00, 0x00, 0xfe, 0xff], .utf32 true), ([0xff, 0xfe, 0x00, 0x00], .utf32 false),
    ([0xfe, 0xff], .utf16 true), ([0xff, 0xfe], .utf16 false), ([0xef, 0xbb, 0xbf], .utf8)]

/-- The encoding of a document without a mark. -/
def Encoding.ofDocument : List UInt8 → Encoding
  | [a, b] => if a = 0 then .utf16 true else if b = 0 then .utf16 false else .utf8
  | a :: b :: c :: d :: _ =>
    if a = 0 then (if b = 0 then .utf32 true else .utf16 true)
    else if b = 0 then (if c = 0 ∧ d = 0 then .utf32 false else .utf16 false)
    else .utf8
  | _ => .utf8

/-- Whether three bytes encode half of a pair of code units. -/
def isHalf : List UInt8 → Bool
  | [a, b, c] => a = 0xed && 0xa0 ≤ b && b ≤ 0xbf && 0x80 ≤ c && c ≤ 0xbf
  | _ => false

/-- Reads units of one byte, the first of which stands at the given position. -/
def ofUnits8 (position : Nat) : List UInt8 → Except EncodingFault (List Char)
  | [] => .ok []
  | first :: bytes =>
    match following? first with
    | none => .error ⟨.utf8, position, [first], .invalidStart⟩
    | some ranges =>
      let n := countIn ranges bytes
      if n = ranges.length then
        (ofUnits8 (position + n + 1) (bytes.drop n)).map (encoded first (bytes.take n) :: ·)
      else if isHalf (first :: bytes.take 2) then
        (ofUnits8 (position + 3) (bytes.drop 2)).map (replacement :: ·)
      else if n = bytes.length then .error ⟨.utf8, position, first :: bytes, .incomplete⟩
      else .error ⟨.utf8, position, first :: bytes.take n, .invalidContinuation⟩
  termination_by bytes => bytes.length
  decreasing_by
    all_goals simp only [List.length_drop, List.length_cons]; omega

/-- The number in bytes, of which the greatest comes first. -/
def unitOf (bytes : List UInt8) : Nat := bytes.foldl (fun n b => 256 * n + b.toNat) 0

/-- Splits bytes into units of the given width; what is left over is cut off.  The first number
bounds the count of units. -/
def units (width : Nat) (big : Bool) : Nat → List UInt8 → List Nat × List UInt8
  | 0, bytes => ([], bytes)
  | bound + 1, bytes =>
    if bytes.length < width then ([], bytes)
    else
      let unit := bytes.take width
      let (us, rest) := units width big bound (bytes.drop width)
      (unitOf (if big then unit else unit.reverse) :: us, rest)

/-- The characters of units of two bytes. -/
def ofUnits16 : List Nat → List Char
  | u :: v :: r =>
    if 0xd800 ≤ u ∧ u < 0xdc00 ∧ 0xdc00 ≤ v ∧ v < 0xe000 then
      Char.ofNat (0x10000 + (u - 0xd800) * 0x400 + (v - 0xdc00)) :: ofUnits16 r
    else
      (if 0xd800 ≤ u ∧ u < 0xe000 then replacement else Char.ofNat u) :: ofUnits16 (v :: r)
  | [u] => [if 0xd800 ≤ u ∧ u < 0xe000 then replacement else Char.ofNat u]
  | [] => []

/-- The character of a unit of four bytes. -/
def ofUnit32 (u : Nat) : Char :=
  if 0xd800 ≤ u ∧ u < 0xe000 then replacement else Char.ofNat u

/-- The position of the first unit that is greater than every character. -/
def firstOutside? (us : List Nat) : Option Nat := us.findIdx? (0x10ffff < ·)

/-- Reads bytes in an encoding. -/
def Encoding.decode (e : Encoding) (bytes : List UInt8) : Except EncodingFault (List Char) :=
  match e with
  | utf8 => ofUnits8 0 bytes
  | utf16 big =>
    match units 2 big bytes.length bytes with
    | (us, []) => .ok (ofUnits16 us)
    | (us, rest) => .error ⟨e, 2 * us.length, rest, .truncated⟩
  | utf32 big =>
    let (us, rest) := units 4 big bytes.length bytes
    match firstOutside? us, rest with
    | some i, _ => .error ⟨e, 4 * i, (bytes.drop (4 * i)).take 4, .outOfRange⟩
    | none, [] => .ok (us.map ofUnit32)
    | none, rest => .error ⟨e, 4 * us.length, rest, .truncated⟩

/-- Where a fault is if so many bytes were left out in front.  In units of one byte the mark does not
count. -/
def EncodingFault.behind (f : EncodingFault) (mark : Nat) : EncodingFault :=
  if f.encoding = .utf8 then f else { f with position := f.position + mark }

/-- Reads the bytes of a document; the mark in front is no part of the text. -/
def ofDocument (bytes : List UInt8) : Except EncodingFault (List Char) :=
  match marks.find? (·.1.isPrefixOf bytes) with
  | some (mark, e) => (e.decode (bytes.drop mark.length)).mapError (·.behind mark.length)
  | none => (Encoding.ofDocument bytes).decode bytes

end EventRelay.Text
