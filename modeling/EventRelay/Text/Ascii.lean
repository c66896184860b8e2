import EventRelay.Text.Quoted

/-!
# Text in ASCII

Some texts travel in ASCII only, such as the headers of a request.  This module finds what a text
holds beyond it, and tells of that.
-/

namespace EventRelay.Text

/-- Whether ASCII has the character. -/
def isAscii (c : Char) : Bool := c.toNat < 128

/-- The first run of characters in a text that ASCII has not. -/
structure AsciiFault where
  /-- The position of the first of them. -/
  position : Nat
  /-- That character. -/
  first : Char
  /-- How many follow it. -/
  more : Nat
deriving DecidableEq, Repr

/-- The wording of the fault. -/
def AsciiFault.message (f : AsciiFault) : String :=
  let place :=
    if f.more = 0 then
      s!"character '{String.ofList (codeEscape f.first.toNat)}' in position {f.position}"
    else s!"characters in position {f.position}-{f.position + f.more}"
  s!"'ascii' codec can't encode {place}: ordinal not in range(128)"

/-- What a text holds beyond ASCII, if anything. -/
def asciiFault? (s : String) : Option AsciiFault :=
  let plain := s.toList.takeWhile isAscii
  match s.toList.dropWhile isAscii with
  | [] => none
  | c :: r => some ⟨plain.length, c, (r.takeWhile fun d => !isAscii d).length⟩

end EventRelay.Text
