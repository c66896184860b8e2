import EventRelay.Json.Basic
import EventRelay.Json.Text
import EventRelay.Number.Decimal

/-!
# Reading documents

A reader for JSON documents over the list of their characters.  It accepts the standard grammar
and the three words for numbers that are none (`NaN`, `Infinity`, `-Infinity`).

Sources differ in what they tolerate beyond that; the differences are one record, `Dialect`.
Reading never diverges: every value takes at least one character, so the length of the document
bounds the work.
-/

namespace EventRelay.Json

/-- Why a document could not be read. -/
inductive ReadError where
  /-- The text is no document. -/
  | malformed
  /-- Containers are nested deeper than the reader goes; the flag tells whether the one that is
  too deep is an object. -/
  | tooDeep (isObject : Bool)
  /-- An integer has more digits than the reader converts. -/
  | tooManyDigits (count : Nat)
deriving DecidableEq, Repr

/-- Which numerals may only have so many digits. -/
inductive LimitedNumerals where
  /-- Integers, whose sign does not count. -/
  | integers
  /-- All numerals by their whole part, whose sign counts as a digit. -/
  | wholeParts
deriving DecidableEq, Repr

/-- What a reader tolerates. -/
structure Dialect where
  /-- How many containers may be open at once; an empty one is never open. -/
  maxDepth : Nat
  /-- How half a pair of escapes is read. -/
  surrogates : Surrogates
  /-- The most digits of a numeral that is converted. -/
  maxDigits : Nat
  /-- The numerals to which that limit applies. -/
  limited : LimitedNumerals

/-- The reader of event envelopes: strict, with bounded nesting. -/
def Dialect.strict : Dialect := ⟨200, .refuse, 4300, .wholeParts⟩

/-- The reader of answers and settings: lenient about half pairs.  It has no bound on nesting of its
own, and goes as deep as calls may be under way: a thousand in all, of which whoever reads an answer
or a setting has made about twenty. -/
def Dialect.lenient : Dialect := ⟨980, .substitute, 4300, .integers⟩

/-- Whether a character may stand between the parts of a document. -/
def isBlank (c : Char) : Bool := c = ' ' || c = '\t' || c = '\n' || c = '\r'

/-- Drops the blanks in front. -/
def skipBlanks (cs : List Char) : List Char := cs.dropWhile isBlank

/-- The rest of the text after a word at its front. -/
def dropWord? (word : String) (cs : List Char) : Option (List Char) :=
  let w := word.toList
  if w.isPrefixOf cs then some (cs.drop w.length) else none

/-- Splits off the exponent of a numeral: the letter, an optional sign and digits.  Without
digits nothing is split off. -/
def spanExponent (cs : List Char) : Int × Bool × List Char :=
  match cs with
  | c :: r =>
    if c = 'e' ∨ c = 'E' then
      let (negative, r) := Number.spanSign r
      match Number.spanDigits r with
      | ([], _) => (0, false, cs)
      | (ds, r) => (Number.signed negative (Number.digitsValue ds), true, r)
    else (0, false, cs)
  | [] => (0, false, cs)

/-- Splits off the fraction of a numeral: a point and at least one digit. -/
def spanFraction (cs : List Char) : List Char × List Char :=
  match cs with
  | '.' :: r =>
    match Number.spanDigits r with
    | ([], _) => ([], cs)
    | (ds, r) => (ds, r)
  | _ => ([], cs)

/-- Whether a numeral of so many digits before its point is too long to be converted. -/
def Dialect.isTooLong (d : Dialect) (negative isInteger : Bool) (digits : Nat) : Bool :=
  match d.limited with
  | .integers => isInteger && d.maxDigits < digits
  | .wholeParts => d.maxDigits < digits + (if negative then 1 else 0)

/-- Reads a numeral whose sign has been read: no leading zero, then an optional fraction and
exponent.  With neither the value is an exact integer. -/
def readNumber (d : Dialect) (negative : Bool) (cs : List Char) :
    Except ReadError (Json × List Char) :=
  let (digits, r) := Number.spanDigits cs
  match digits with
  | [] => .error .malformed
  | '0' :: _ :: _ => .error .malformed
  | _ =>
    let (fraction, r) := spanFraction r
    let (exponent, scaled, r) := spanExponent r
    let isInteger := fraction.isEmpty && !scaled
    if d.isTooLong negative isInteger digits.length then .error (.tooManyDigits digits.length)
    else if isInteger then
      .ok (.int (Number.signed negative (Number.digitsValue digits)), r)
    else
      let decimal : Number.Decimal :=
        ⟨negative, Number.digitsValue (digits ++ fraction), exponent - fraction.length⟩
      .ok (.float decimal.toFloat, r)

/-- Reads a value that is no container and no string. -/
def readScalar (d : Dialect) (cs : List Char) : Except ReadError (Json × List Char) :=
  match cs with
  | 'n' :: _ => scalar (dropWord? "null" cs) .null
  | 't' :: _ => scalar (dropWord? "true" cs) (.bool true)
  | 'f' :: _ => scalar (dropWord? "false" cs) (.bool false)
  | 'N' :: _ => scalar (dropWord? "NaN" cs) (.float (0.0 / 0.0))
  | 'I' :: _ => scalar (dropWord? "Infinity" cs) (.float (1.0 / 0.0))
  | '-' :: 'I' :: r => scalar (dropWord? "Infinity" ('I' :: r)) (.float (-1.0 / 0.0))
  | '-' :: r => readNumber d true r
  | _ => readNumber d false cs
where
  /-- A word that stands for a value. -/
  scalar (rest : Option (List Char)) (v : Json) : Except ReadError (Json × List Char) :=
    match rest with
    | some r => .ok (v, r)
    | none => .error .malformed

mutual

/-- Reads one value; `depth` counts the containers that are open. -/
def readValue (d : Dialect) : Nat → Nat → List Char → Except ReadError (Json × List Char)
  | 0, _, _ => .error .malformed
  | fuel + 1, depth, cs =>
    match skipBlanks cs with
    | '{' :: r =>
      match skipBlanks r with
      | '}' :: r => .ok (.object [], r)
      | r =>
        if d.maxDepth ≤ depth then .error (.tooDeep true)
        else (readMembers d fuel (depth + 1) r).map fun (ms, r) => (.object ms, r)
    | '[' :: r =>
      match skipBlanks r with
      | ']' :: r => .ok (.array [], r)
      | r =>
        if d.maxDepth ≤ depth then .error (.tooDeep false)
        else (readItems d fuel (depth + 1) r).map fun (vs, r) => (.array vs, r)
    | '"' :: r =>
      match unquote d.surrogates fuel r with
      | some (s, r) => .ok (.text s, r)
      | none => .error .malformed
    | r => readScalar d r

/-- Reads the items of an array up to its closing bracket; at least one is due. -/
def readItems (d : Dialect) : Nat → Nat → List Char → Except ReadError (List Json × List Char)
  | 0, _, _ => .error .malformed
  | fuel + 1, depth, cs =>
    match readValue d fuel depth cs with
    | .error e => .error e
    | .ok (v, r) =>
      match skipBlanks r with
      | ',' :: r => (readItems d fuel depth r).map fun (vs, r) => (v :: vs, r)
      | ']' :: r => .ok ([v], r)
      | _ => .error .malformed

/-- Reads the members of an object up to its closing brace; at least one is due. -/
def readMembers (d : Dialect) :
    Nat → Nat → List Char → Except ReadError (List (String × Json) × List Char)
  | 0, _, _ => .error .malformed
  | fuel + 1, depth, cs =>
    match skipBlanks cs with
    | '"' :: r =>
      match unquote d.surrogates fuel r with
      | none => .error .malformed
      | some (name, r) =>
        match skipBlanks r with
        | ':' :: r =>
          match readValue d fuel depth r with
          | .error e => .error e
          | .ok (v, r) =>
            match skipBlanks r with
            | ',' :: r => (readMembers d fuel depth r).map fun (ms, r) => ((name, v) :: ms, r)
            | '}' :: r => .ok ([(name, v)], r)
            | _ => .error .malformed
        | _ => .error .malformed
    | _ => .error .malformed

end

/-- Reads a whole document: one value, with blanks allowed around it. -/
def read (d : Dialect) (s : String) : Except ReadError Json :=
  let cs := s.toList
  match readValue d (cs.length + 1) 0 cs with
  | .error e => .error e
  | .ok (v, r) => if skipBlanks r = [] then .ok v else .error .malformed

end EventRelay.Json
