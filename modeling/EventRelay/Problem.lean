/-!
# Problems of fields

What can be wrong with a field of an incoming document or a setting, and where.  A document
is checked field by field in the order of their declaration, and all problems are reported.
-/

namespace EventRelay

/-- What is wrong with a field, or with a document as a whole. -/
inductive Fault where
  /-- The text is no document. -/
  | malformedDocument
  /-- The document is no object. -/
  | noObject
  /-- The field is required and absent. -/
  | missing
  /-- A string was expected. -/
  | noText
  /-- An integer was expected. -/
  | noInteger
  /-- The text denotes no integer. -/
  | unreadableInteger
  /-- The integer has too many digits. -/
  | oversizedInteger
  /-- The number has a fractional part. -/
  | fractionalInteger
  /-- The number is infinite or undefined. -/
  | infiniteNumber
  /-- A number was expected. -/
  | unreadableNumber
  /-- A truth value was expected. -/
  | unreadableBool
  /-- The value is none of those allowed. -/
  | outsideChoice
  /-- A timestamp was expected. -/
  | noTimestamp
  /-- The count lies outside the range of timestamps. -/
  | timestampOutOfRange
  /-- The text denotes no timestamp. -/
  | unreadableTimestamp
  /-- The bytes are no UTF-8 text. -/
  | unreadableText
  /-- A list was expected. -/
  | noList
deriving DecidableEq, Repr

/-- The word by which a fault is reported. -/
def Fault.word : Fault → String
  | malformedDocument => "json_invalid"
  | noObject => "model_type"
  | missing => "missing"
  | noText => "string_type"
  | noInteger => "int_type"
  | unreadableInteger => "int_parsing"
  | oversizedInteger => "int_parsing_size"
  | fractionalInteger => "int_from_float"
  | infiniteNumber => "finite_number"
  | unreadableNumber => "float_parsing"
  | unreadableBool => "bool_parsing"
  | outsideChoice => "literal_error"
  | noTimestamp => "datetime_type"
  | timestampOutOfRange => "datetime_parsing"
  | unreadableTimestamp => "datetime_from_date_parsing"
  | unreadableText => "string_unicode"
  | noList => "list_type"

/-- One step on the way to a faulty value. -/
inductive PathStep where
  /-- The member of that name. -/
  | field (name : String)
  /-- The item at that position. -/
  | item (index : Nat)
deriving DecidableEq, Repr

/-- A fault and the way to the value that has it. -/
structure Problem where
  /-- What is wrong. -/
  fault : Fault
  /-- Where it is; nowhere when the document as a whole is at fault. -/
  path : List PathStep
deriving DecidableEq, Repr

end EventRelay
