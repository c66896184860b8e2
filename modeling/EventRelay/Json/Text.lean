/-!
# Strings inside documents

The written form of a string in a JSON document: how a character is escaped, in two alphabets
(all of Unicode, or ASCII alone), and how an escaped string is read.

Reading is over the characters that remain of the document.  A character outside the basic
plane may be written as a pair of escapes; half a pair denotes no character, and what happens
then is the reader's choice (`Surrogates`).
-/

namespace EventRelay.Json

/-- The lower-case hexadecimal digit of a value below sixteen. -/
def hexDigit (n : Nat) : Char := Nat.digitChar n

/-- The escape of a code unit: four hexadecimal digits after the letter `u`. -/
def unitEscape (n : Nat) : List Char :=
  ['\\', 'u', hexDigit (n / 4096 % 16), hexDigit (n / 256 % 16), hexDigit (n / 16 % 16),
    hexDigit (n % 16)]

/-- The escapes that every alphabet has: the quote, the backslash and control characters. -/
def controlEscape? (c : Char) : Option (List Char) :=
  if c = '"' then some ['\\', '"']
  else if c = '\\' then some ['\\', '\\']
  else if c = '\n' then some ['\\', 'n']
  else if c = '\r' then some ['\\', 'r']
  else if c = '\t' then some ['\\', 't']
  else if c.toNat = 8 then some ['\\', 'b']
  else if c.toNat = 12 then some ['\\', 'f']
  else if c.toNat < 32 then some (unitEscape c.toNat)
  else none

/-- A character of a string in the alphabet of all Unicode. -/
def escape (c : Char) : List Char := (controlEscape? c).getD [c]

/-- A character of a string in the ASCII alphabet: what lies beyond the printable characters
is escaped, outside the basic plane by a pair. -/
def escapeAscii (c : Char) : List Char :=
  match controlEscape? c with
  | some cs => cs
  | none =>
    if c.toNat < 127 then [c]
    else if c.toNat < 65536 then unitEscape c.toNat
    else
      let n := c.toNat - 65536
      unitEscape (55296 + n / 1024) ++ unitEscape (56320 + n % 1024)

/-- A string in quotes, in the alphabet of all Unicode. -/
def quote (s : String) : String := String.ofList ('"' :: s.toList.flatMap escape ++ ['"'])

/-- A string in quotes, in the ASCII alphabet. -/
def quoteAscii (s : String) : String :=
  String.ofList ('"' :: s.toList.flatMap escapeAscii ++ ['"'])

/-- What a reader does with half of a pair of escapes. -/
inductive Surrogates where
  /-- The document is malformed. -/
  | refuse
  /-- The replacement character stands for it. -/
  | substitute
deriving DecidableEq, Repr

/-- The value of a hexadecimal digit in either case. -/
def hexValue? (c : Char) : Option Nat :=
  if '0' ≤ c ∧ c ≤ '9' then some (c.toNat - 48)
  else if 'a' ≤ c ∧ c ≤ 'f' then some (c.toNat - 87)
  else if 'A' ≤ c ∧ c ≤ 'F' then some (c.toNat - 55)
  else none

/-- The code unit of four hexadecimal digits. -/
def unit? (a b c d : Char) : Option Nat :=
  match hexValue? a, hexValue? b, hexValue? c, hexValue? d with
  | some a, some b, some c, some d => some (4096 * a + 256 * b + 16 * c + d)
  | _, _, _, _ => none

/-- Whether a code unit opens a pair. -/
def opensPair (n : Nat) : Bool := 55296 ≤ n && n < 56320

/-- Whether a code unit closes a pair. -/
def closesPair (n : Nat) : Bool := 56320 ≤ n && n < 57344

/-- The character that the letter after a backslash stands for. -/
def shortEscape? (c : Char) : Option Char :=
  if c = '"' then some '"'
  else if c = '\\' then some '\\'
  else if c = '/' then some '/'
  else if c = 'n' then some '\n'
  else if c = 'r' then some '\r'
  else if c = 't' then some '\t'
  else if c = 'b' then some '\x08'
  else if c = 'f' then some '\x0c'
  else none

/-- The code unit at the front of the text, if an escape of one stands there. -/
def unitAtFront? : List Char → Option (Nat × List Char)
  | '\\' :: 'u' :: a :: b :: c :: d :: r => (unit? a b c d).map (·, r)
  | _ => none

/-- What one written character of a string means: the character and what follows it, the end
of the string, or nothing that a string may hold. -/
inductive Piece where
  /-- A character, and the text after it. -/
  | char (c : Char) (rest : List Char)
  /-- The closing quote, and the text after it. -/
  | close (rest : List Char)
  /-- No string continues this way. -/
  | broken

/-- Reads a code unit that stands for no character by itself, or for one. -/
def Piece.ofUnit (policy : Surrogates) (n : Nat) (rest : List Char) : Piece :=
  let alone := match policy with
    | .refuse => Piece.broken
    | .substitute => .char '\ufffd' rest
  if opensPair n then
    match unitAtFront? rest with
    | some (m, after) =>
      if closesPair m then .char (Char.ofNat (65536 + (n - 55296) * 1024 + (m - 56320))) after
      else alone
    | none => alone
  else if closesPair n then alone
  else .char (Char.ofNat n) rest

/-- The next written character of a string. -/
def Piece.next (policy : Surrogates) : List Char → Piece
  | [] => .broken
  | '"' :: r => .close r
  | '\\' :: r =>
    match unitAtFront? ('\\' :: r), r with
    | some (n, after), _ => .ofUnit policy n after
    | none, e :: r => ((shortEscape? e).map (.char · r)).getD .broken
    | none, [] => .broken
  | c :: r => if c.toNat < 32 then .broken else .char c r

/-- Reads the rest of a string up to its closing quote; `fuel` bounds the number of written
characters, and `seen` holds the characters read, last first. -/
def unquoteFrom (policy : Surrogates) : Nat → List Char → List Char → Option (String × List Char)
  | 0, _, _ => none
  | fuel + 1, seen, cs =>
    match Piece.next policy cs with
    | .char c r => unquoteFrom policy fuel (c :: seen) r
    | .close r => some (String.ofList seen.reverse, r)
    | .broken => none

/-- Reads the rest of a string whose opening quote has been read; any bound from the length of
the text upwards gives the same result. -/
def unquote (policy : Surrogates) (fuel : Nat) (cs : List Char) : Option (String × List Char) :=
  unquoteFrom policy fuel [] cs

end EventRelay.Json
