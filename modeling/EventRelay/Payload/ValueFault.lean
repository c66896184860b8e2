import EventRelay.Time.IsoNotation

/-!
# Texts that denote no value

Some values of a payload are given as text: numbers, identifiers, moments, raw bytes.  This
module lists what can be wrong with such a text, and how that is told.
-/

namespace EventRelay

/-- Why a text denotes no value of the type it is given for. -/
inductive ValueFault where
  /-- The text is no number. -/
  | float (written : String)
  /-- The text is no integer to that base. -/
  | integer (base : Nat) (written : String)
  /-- The identifier has not thirty-two digits. -/
  | identifierLength
  /-- The identifier is below zero. -/
  | identifierRange
  /-- The text is no decimal. -/
  | decimal
  /-- At that position two digits of a byte were due. -/
  | bytes (position : Nat)
  /-- The text is no date or moment. -/
  | moment (fault : IsoFault)
deriving DecidableEq, Repr

namespace ValueFault

/-- The wording of the cause. -/
def message : ValueFault → String
  | float written => "could not convert string to float: " ++ Text.quoted written
  | integer base written =>
    s!"invalid literal for int() with base {base}: " ++
      String.ofList ((Text.quoted written).toList.take 200)
  | identifierLength => "badly formed hexadecimal UUID string"
  | identifierRange => "int is out of range (need a 128-bit value)"
  | decimal => ""
  | bytes position => s!"non-hexadecimal number found in fromhex() arg at position {position}"
  | moment fault => fault.message

end ValueFault

end EventRelay
