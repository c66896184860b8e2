/-!
# Text from bytes

Reading bytes as UTF-8 where nothing may be refused: bytes that encode no character are read as
the replacement character, one for each longest run of bytes with which an encoding could begin.
-/

namespace EventRelay.Text

/-- The ranges of the bytes that have to follow a first byte, or nothing if no encoding begins
with it. -/
def following? (first : UInt8) : Option (List (UInt8 × UInt8)) :=
  let any : UInt8 × UInt8 := (0x80, 0xbf)
  if first < 0x80 then some []
  else if first < 0xc2 then none
  else if first < 0xe0 then some [any]
  else if first = 0xe0 then some [(0xa0, 0xbf), any]
  else if first = 0xed then some [(0x80, 0x9f), any]
  else if first < 0xf0 then some [any, any]
  else if first = 0xf0 then some [(0x90, 0xbf), any, any]
  else if first < 0xf4 then some [any, any, any]
  else if first = 0xf4 then some [(0x80, 0x8f), any, any]
  else none

/-- How many bytes in front lie in the ranges, one after the other. -/
def countIn : List (UInt8 × UInt8) → List UInt8 → Nat
  | (low, high) :: ranges, b :: bytes =>
    if low ≤ b ∧ b ≤ high then countIn ranges bytes + 1 else 0
  | _, _ => 0

/-- The character that a first byte and those after it encode. -/
def encoded (first : UInt8) (rest : List UInt8) : Char :=
  let top := match rest.length with
    | 0 => first
    | 1 => first &&& 0x1f
    | 2 => first &&& 0x0f
    | _ => first &&& 0x07
  Char.ofNat (rest.foldl (fun n b => 64 * n + (b &&& 0x3f).toNat) top.toNat)

/-- The character that stands for bytes that encode none. -/
def replacement : Char := '\ufffd'

/-- Reads bytes as text, whatever they are. -/
def ofBytes : List UInt8 → List Char
  | [] => []
  | first :: bytes =>
    match following? first with
    | none => replacement :: ofBytes bytes
    | some ranges =>
      let n := countIn ranges bytes
      let c := if n = ranges.length then encoded first (bytes.take n) else replacement
      c :: ofBytes (bytes.drop n)
  termination_by bytes => bytes.length
  decreasing_by
    · simp
    · simp only [List.length_drop, List.length_cons]; omega

end EventRelay.Text
