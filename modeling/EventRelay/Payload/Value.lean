import EventRelay.Event.Reader
import EventRelay.Failure

/-!
# Free-form payloads

What a service may put into an event besides an envelope: nested values of many types, most of
which have a written form.  Members of a dictionary are named by values too; two names that are
equal as values are one name, and the later member wins but keeps the place and the name of the
first.  A value that can change is no name.
-/

namespace EventRelay

/-- A value in a free-form payload. -/
inductive Value where
  /-- Nothing. -/
  | null
  /-- A truth value. -/
  | bool (value : Bool)
  /-- An integer. -/
  | int (value : Int)
  /-- A floating-point number. -/
  | float (value : Float)
  /-- A string. -/
  | text (value : String)
  /-- A unique identifier, as its thirty-two hexadecimal digits. -/
  | uuid (digits : String)
  /-- A date with a time of day. -/
  | moment (value : Timestamp)
  /-- A date alone. -/
  | date (value : Date)
  /-- A decimal number. -/
  | decimal (value : Number.ExtendedDecimal)
  /-- Raw bytes. -/
  | bytes (value : List UInt8)
  /-- A list. -/
  | list (items : List Value)
  /-- A tuple. -/
  | tuple (items : List Value)
  /-- A set. -/
  | set (items : List Value)
  /-- A dictionary. -/
  | dict (members : List (Value × Value))
  /-- An event inside a payload, of which only the type is known. -/
  | event (type : String)
  /-- A value of some other type, of which only the type is known. -/
  | foreign (type : String)
  /-- A container that contains itself. -/
  | cyclic
deriving Inhabited

namespace Value

/-- The name of the type of a value. -/
def typeName : Value → String
  | null => "NoneType"
  | bool _ => "bool"
  | int _ => "int"
  | float _ => "float"
  | text _ => "str"
  | uuid _ => "UUID"
  | moment _ => "datetime"
  | date _ => "date"
  | decimal _ => "Decimal"
  | bytes _ => "bytes"
  | list _ => "list"
  | tuple _ => "tuple"
  | set _ => "set"
  | dict _ => "dict"
  | event type => type
  | foreign type => type
  | cyclic => "dict"

/-- The name of the type of a value where it is told as a name of a member: dates and decimals
are told by their full names. -/
def qualifiedTypeName : Value → String
  | moment _ => "datetime.datetime"
  | date _ => "datetime.date"
  | decimal _ => "decimal.Decimal"
  | v => v.typeName

/-- A number among names of members, whatever its type. -/
inductive NumericName where
  /-- A number, exactly. -/
  | finite (value : Number.Fraction)
  /-- Infinity, with a sign. -/
  | infinite (negative : Bool)
  /-- No number, which equals nothing. -/
  | undefined

/-- Whether two numbers are one name. -/
def NumericName.same : NumericName → NumericName → Bool
  | finite a, finite b => a.same b
  | infinite a, infinite b => a == b
  | _, _ => false

/-- The number that a value is, as a name of a member: truth values count as one and zero. -/
def asNumber? : Value → Option NumericName
  | bool b => some (.finite ⟨if b then 1 else 0, 1⟩)
  | int n => some (.finite ⟨n, 1⟩)
  | float x =>
    match Number.Dyadic.ofFloat? x with
    | some d => some (.finite d.fraction)
    | none => some (if x.isNaN then .undefined else .infinite (x < 0.0))
  | decimal (.finite d) => some (.finite d.fraction)
  | decimal (.infinite negative) => some (.infinite negative)
  | decimal (.undefined _) => some .undefined
  | _ => none

mutual

/-- Whether two values are the same name of a member. -/
def sameName : Value → Value → Bool
  | null, null => true
  | text s, text t => s == t
  | uuid s, uuid t => s == t
  | moment s, moment t => s == t
  | date s, date t => s == t
  | bytes s, bytes t => s == t
  | tuple vs, tuple ws => sameNames vs ws
  | v, w =>
    match v.asNumber?, w.asNumber? with
    | some a, some b => a.same b
    | _, _ => false

/-- Whether two tuples are the same name of a member. -/
def sameNames : List Value → List Value → Bool
  | [], [] => true
  | v :: vs, w :: ws => sameName v w && sameNames vs ws
  | _, _ => false

end

mutual

/-- Why a value can be no name, if it cannot. -/
def unnameable? : Value → Option Unnameable
  | list _ => some (.mutable "list")
  | set _ => some (.mutable "set")
  | dict _ => some (.mutable "dict")
  | cyclic => some (.mutable "dict")
  | event type => some (.mutable type)
  | decimal (.undefined true) => some .signalling
  | tuple items => unnameableItem? items
  | _ => none

/-- Why the first value that can be no name cannot. -/
def unnameableItem? : List Value → Option Unnameable
  | [] => none
  | v :: vs =>
    match unnameable? v with
    | some cause => some cause
    | none => unnameableItem? vs

end

/-- Adds a member; under a name that is there the value is replaced. -/
def putMember (name value : Value) : List (Value × Value) → List (Value × Value)
  | [] => [(name, value)]
  | (n, v) :: rest =>
    if sameName n name then (n, value) :: rest else (n, v) :: putMember name value rest

/-- The dictionary of a list of members, of which later ones win. -/
def ofMembers (members : List (Value × Value)) : Except Failure Value :=
  match unnameableItem? (members.map (·.1)) with
  | some cause => .error (.unnameable cause)
  | none => .ok (dict (members.foldl (fun ms (n, v) => putMember n v ms) []))

/-- The set of a list of elements. -/
def ofElements (items : List Value) : Except Failure Value :=
  match unnameableItem? items with
  | some cause => .error (.unnameable cause)
  | none => .ok (set items)

/-- Wraps a value so many times in a list. -/
def nestInLists : Nat → Value → Value
  | 0, v => v
  | n + 1, v => nestInLists n (list [v])

/-- Wraps a value so many times in a dictionary under one name. -/
def nestInDicts (name : String) : Nat → Value → Value
  | 0, v => v
  | n + 1, v => nestInDicts name n (dict [(text name, v)])

end Value

/-! ## Events built from values -/

/-- The string that bytes encode. -/
def textOfBytes (bytes : List UInt8) : Except Fault String :=
  match String.fromUTF8? ⟨bytes.toArray⟩ with
  | some s => .ok s
  | none => .error .unreadableText

/-- The integer that a decimal is, if it has no fraction; whole powers of ten are taken as they
are. -/
def integerOfDecimal : Number.ExtendedDecimal → Except Fault Int
  | .finite d =>
    let q := d.fraction
    if q.num % q.den = 0 then .ok (q.num / q.den) else .error .fractionalInteger
  | _ => .error .infiniteNumber

/-- The timestamp that a decimal counts. -/
def timestampOfDecimal (d : Number.ExtendedDecimal) : Except Fault Timestamp :=
  match d.toFloat? with
  | some x => Reading.timestampOfCount (Timestamp.ofFloatCount? x)
  | none => .error .noTimestamp

/-- The reading of fields from the values of a program rather than from a document. -/
def Reading.value : Reading Value where
  text
    | .text s => .ok s
    | .bytes bs => textOfBytes bs
    | _ => .error .noText
  optional
    | .null => .ok none
    | .text s => .ok (some s)
    | .bytes bs => (textOfBytes bs).map some
    | _ => .error .noText
  integer
    | .int n => .ok n
    | .bool b => .ok (if b then 1 else 0)
    | .float x => Scalar.integerOfFloat x
    | .text s => Scalar.integer s
    | .bytes bs =>
      match textOfBytes bs with
      | .ok s => Scalar.integer s
      | .error _ => .error .unreadableInteger
    | .decimal d => integerOfDecimal d
    | _ => .error .noInteger
  timestamp
    | .moment t => .ok t
    | .date d => .ok ⟨d, 0, 0, 0, 0, none⟩
    | .text s => Reading.timestampOfText s
    | .bytes bs =>
      match textOfBytes bs with
      | .ok s => Reading.timestampOfText s
      | .error _ => .error .unreadableTimestamp
    | .int n => Reading.timestampOfCount (Timestamp.ofCount? n)
    | .float x => Reading.timestampOfCount (Timestamp.ofFloatCount? x)
    | .decimal d => timestampOfDecimal d
    | _ => .error .noTimestamp

/-- The members of a dictionary that are named by strings. -/
def Value.namedMembers : Value → List (String × Value)
  | .dict members => members.filterMap fun (name, v) =>
      match name with
      | .text s => some (s, v)
      | _ => none
  | _ => []

/-- Builds a user event from the members of a dictionary. -/
def UserEvent.ofValue (now : Timestamp) (v : Value) : Checked UserEvent :=
  Reading.value.userEvent now v.namedMembers

/-- Builds a task event from the members of a dictionary. -/
def TaskEvent.ofValue (now : Timestamp) (v : Value) : Checked TaskEvent :=
  Reading.value.taskEvent now v.namedMembers

end EventRelay
