import EventRelay.Payload.ValueFault
import EventRelay.Problem
import EventRelay.Text.Ascii
import EventRelay.Text.Encoding

/-!
# Causes of failure

Everything that can end an operation early, as a cause: what was missing, taken, unreadable or
out of range, or which scripted error a dependency raised.  The name and the wording under which
a cause is reported are functions of it.

Cancellation stands apart: it is no ordinary error, and operations that carry on after an error
are ended by it.
-/

namespace EventRelay

/-- Why a free-form payload has no written form. -/
inductive Unwritable where
  /-- A value of this type has no written form. -/
  | value (type : String)
  /-- A value of this type cannot name a member. -/
  | key (type : String)
  /-- The value contains itself. -/
  | cyclic
  /-- An integer is longer than is written out. -/
  | longInteger
deriving DecidableEq, Repr

/-- The wording of an unwritable payload. -/
def Unwritable.message : Unwritable → String
  | value type => s!"Object of type {type} is not JSON serializable"
  | key type => s!"keys must be str, int, float, bool or None, not {type}"
  | cyclic => "Circular reference detected"
  | longInteger =>
    "Exceeds the limit (4300 digits) for integer string conversion; " ++
      "use sys.set_int_max_str_digits() to increase the limit"

/-- Why a value can neither name a member of a dictionary nor be an element of a set. -/
inductive Unnameable where
  /-- A value of this type can change. -/
  | mutable (type : String)
  /-- The value may not be compared at all. -/
  | signalling
deriving DecidableEq, Repr

/-- The wording for a value that is no name. -/
def Unnameable.message : Unnameable → String
  | mutable type => s!"unhashable type: '{type}'"
  | signalling => "Cannot hash a signaling NaN value"

/-- Why the remote users service gave no usable verdict. -/
inductive AnswerFault where
  /-- The status is neither success nor "not found". -/
  | status
  /-- The body is no document. -/
  | body
  /-- The body is a document of another type than an object. -/
  | shape (type : String)
  /-- The bytes of the body encode no text. -/
  | encoding (fault : Text.EncodingFault)
  /-- The body nests deeper than is read; the flag tells whether an object is too deep. -/
  | nesting (isObject : Bool)
  /-- The body holds an integer numeral longer than is read. -/
  | longInteger (digits : Nat)
deriving DecidableEq, Repr

/-- The cause that ended an operation. -/
inductive Failure where
  /-- The activity was cancelled. -/
  | cancelled (message : String)
  /-- There is no such user to change. -/
  | noSuchUser (id : Int)
  /-- There is no such task to change. -/
  | noSuchTask (id : Int)
  /-- The users service says that the owner does not exist. -/
  | ownerMissing (id : Int)
  /-- Another user has this e-mail address. -/
  | emailTaken (email : String)
  /-- The users service could not be asked, and guessing is switched off. -/
  | unverifiable (id : Int) (reason : String)
  /-- An event could not be read. -/
  | unreadableEvent (problems : List Problem)
  /-- An event could not be built from its fields. -/
  | unbuildableEvent (problems : List Problem)
  /-- A payload has no written form. -/
  | unwritable (cause : Unwritable)
  /-- A text denotes no value of its type. -/
  | unreadableValue (cause : ValueFault)
  /-- A value cannot be a name. -/
  | unnameable (cause : Unnameable)
  /-- The text names no status of the given kind. -/
  | noSuchStatus (text kind : String)
  /-- A row would break a constraint of its table. -/
  | constraint
  /-- An integer does not fit into a column. -/
  | integerTooLarge
  /-- Keys cannot be spread over no partitions at all. -/
  | noPartitions
  /-- A numeral has more digits than are read. -/
  | numeralTooLong (digits : Nat)
  /-- A time limit passed. -/
  | timedOut
  /-- The calendar has no such date. -/
  | noSuchDate
  /-- A span has more days, or so many less than none, than are kept. -/
  | tooManyDays (days : Int)
  /-- The stream has no such consumer group. -/
  | noSuchGroup
  /-- The consumer group exists already. -/
  | groupExists
  /-- The users service gave no usable verdict. -/
  | badAnswer (fault : AnswerFault)
  /-- A payload nests deeper than is written. -/
  | nestedTooDeep
  /-- An attribute of the running application is not set. -/
  | noAttribute (owner field : String)
  /-- A counter was to shrink. -/
  | negativeGrowth
  /-- A target of a request has characters that none may have, or too many. -/
  | badTarget
  /-- A header of a request is not in ASCII. -/
  | badHeader (fault : Text.AsciiFault)
  /-- A dependency raised an error of this kind. -/
  | raised (kind message : String)
deriving DecidableEq, Repr

namespace Failure

/-- Whether the cause is a cancellation and not an ordinary error. -/
def isCancellation : Failure → Bool
  | cancelled _ => true
  | _ => false

/-- Whether the cause is a broken constraint of the database. -/
def isConstraint : Failure → Bool
  | constraint => true
  | raised kind _ => kind == "IntegrityError"
  | _ => false

/-- The marker by which the broker says that a consumer group exists already. -/
def groupMarker : String := "BUSYGROUP"

/-- What stands before the names of the errors of the web client. -/
def webClientErrors : String := "httpx."

/-- The name of a scripted error: one of the web client goes without what stands before it. -/
def scriptedName (kind : String) : String :=
  if kind.startsWith webClientErrors then (kind.drop webClientErrors.length).toString else kind

/-- The name under which the cause is reported. -/
def kind : Failure → String
  | cancelled _ => "CancelledError"
  | noSuchUser _ => "NotFoundError"
  | noSuchTask _ => "NotFoundError"
  | ownerMissing _ => "UserNotFoundError"
  | emailTaken _ => "ConflictError"
  | unverifiable _ _ => "ServiceUnavailableError"
  | unreadableEvent _ => "EventParseError"
  | unbuildableEvent _ => "ValidationError"
  | unwritable _ => "PayloadSerializationError"
  | unreadableValue .decimal => "InvalidOperation"
  | unreadableValue _ => "ValueError"
  | unnameable _ => "TypeError"
  | noSuchStatus _ _ => "ValueError"
  | constraint => "IntegrityError"
  | integerTooLarge => "OverflowError"
  | noPartitions => "ZeroDivisionError"
  | numeralTooLong _ => "ValueError"
  | timedOut => "TimeoutError"
  | noSuchDate => "OverflowError"
  | tooManyDays _ => "OverflowError"
  | noSuchGroup => "ResponseError"
  | groupExists => "ResponseError"
  | badAnswer .status => "HTTPStatusError"
  | badAnswer .body => "JSONDecodeError"
  | badAnswer (.shape _) => "AttributeError"
  | badAnswer (.encoding _) => "UnicodeDecodeError"
  | badAnswer (.nesting _) => "RecursionError"
  | badAnswer (.longInteger _) => "ValueError"
  | nestedTooDeep => "RecursionError"
  | noAttribute _ _ => "AttributeError"
  | negativeGrowth => "ValueError"
  | badTarget => "InvalidURL"
  | badHeader _ => "UnicodeEncodeError"
  | raised kind _ => scriptedName kind

/-- The wording for a numeral that is too long to be read. -/
def longNumeral (digits : Nat) : String :=
  s!"Exceeds the limit (4300 digits) for integer string conversion: value has {digits} digits; " ++
    "use sys.set_int_max_str_digits() to increase the limit"

/-- The wording for containers that nest deeper than is read. -/
def deepNesting (isObject : Bool) : String :=
  "maximum recursion depth exceeded while decoding a JSON " ++
    (if isObject then "object" else "array") ++ " from a unicode string"

/-- The wording for a user who is not there. -/
def missingUser (user : String) : String := s!"User {user} not found"

/-- The most days that a span is kept for. -/
def mostDays : Nat := 999999999

/-- The wording of the cause. -/
def message : Failure → String
  | cancelled message => message
  | noSuchUser id => missingUser (toString id)
  | noSuchTask id => s!"Task {id} not found"
  | ownerMissing id => missingUser (toString id)
  | emailTaken email => s!"User with email {email} already exists"
  | unverifiable id reason => s!"Cannot verify user {id}: {reason}"
  | unreadableEvent _ => ""
  | unbuildableEvent _ => ""
  | unwritable cause => cause.message
  | unreadableValue cause => cause.message
  | unnameable cause => cause.message
  | noSuchStatus text kind => Text.quoted text ++ " is not a valid " ++ kind
  | constraint => ""
  | integerTooLarge => "Python int too large to convert to SQLite INTEGER"
  | noPartitions => "integer modulo by zero"
  | numeralTooLong digits => longNumeral digits
  | timedOut => ""
  | noSuchDate => "date value out of range"
  | tooManyDays days =>
    if -2147483648 ≤ days ∧ days < 2147483648 then s!"days={days}; must have magnitude <= {mostDays}"
    else "Python int too large to convert to C int"
  | noSuchGroup => "NOGROUP No such key or consumer group"
  | groupExists => groupMarker ++ " Consumer Group name already exists"
  | badAnswer (.shape type) => s!"'{type}' object has no attribute 'get'"
  | badAnswer (.longInteger digits) => longNumeral digits
  | badAnswer (.encoding fault) => fault.message
  | badAnswer (.nesting isObject) => deepNesting isObject
  | badAnswer _ => ""
  | nestedTooDeep => ""
  | noAttribute owner field => s!"'{owner}' object has no attribute '{field}'"
  | negativeGrowth => "Counters can only be incremented by non-negative amounts."
  | badTarget => ""
  | badHeader fault => fault.message
  | raised _ message => message

/-- The text under which a failed send is recorded: the name of the cause and its wording. -/
def summary (f : Failure) : String := f.kind ++ ": " ++ f.message

/-- Whether the broker means that the consumer group exists already. -/
def meansGroupExists : Failure → Bool
  | groupExists => true
  | raised kind message =>
    kind == "ResponseError" && (message.splitOn groupMarker).length > 1
  | _ => false

end Failure

end EventRelay
