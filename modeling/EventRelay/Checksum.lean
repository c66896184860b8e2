/-!
# CRC-32

The cyclic redundancy check that spreads keys over partitions: the reflected polynomial
`0xEDB88320`, initial and final complement.  The state is a fold over the bytes, so it can be
carried on over an appended input.
-/

namespace EventRelay.Checksum

/-- One bit of polynomial division. -/
def stepBit (state : UInt32) : UInt32 :=
  if state % 2 = 1 then (state >>> 1) ^^^ 0xEDB88320 else state >>> 1

/-- Takes in one byte: eight bits. -/
def stepByte (state : UInt32) (byte : UInt8) : UInt32 :=
  Nat.repeat stepBit 8 (state ^^^ byte.toUInt32)

/-- The check value of a list of bytes. -/
def ofBytes (bytes : List UInt8) : UInt32 := bytes.foldl stepByte 0xFFFFFFFF ^^^ 0xFFFFFFFF

/-- The check value of the UTF-8 bytes of a text. -/
def ofText (s : String) : UInt32 := ofBytes s.toUTF8.toList

end EventRelay.Checksum
