import EventRelay.Failure
import EventRelay.Json.Reader

/-!
# Answers of the users service

What an HTTP response says about the existence of a user.  Status 404 says no.  A success says
what the member `exists` of its body says, and no when there is none.  Every other response is a
fault and says nothing.
-/

namespace EventRelay

/-- A response of the users service. -/
structure UsersResponse where
  /-- The status. -/
  status : Int
  /-- The body, as bytes. -/
  body : List UInt8
deriving Repr

/-- The name of the type of a document, as a fault tells it. -/
def Json.typeName : Json → String
  | null => "NoneType"
  | bool _ => "bool"
  | int _ => "int"
  | float _ => "float"
  | text _ => "str"
  | array _ => "list"
  | object _ => "dict"

namespace UsersResponse

/-- The request that asks for a user. -/
def requestLine (user : Int) : String := s!"GET /users/{user}/exists"

/-- The verdict of a document. -/
def documentVerdict (text : String) : Except Failure Bool :=
  match Json.read .lenient text with
  | .error .malformed => .error (.badAnswer .body)
  | .error (.tooDeep isObject) => .error (.badAnswer (.nesting isObject))
  | .error (.tooManyDigits n) => .error (.badAnswer (.longInteger n))
  | .ok (.object members) => .ok (((Json.lastMember? "exists" members).map Json.isTruthy).getD false)
  | .ok v => .error (.badAnswer (.shape v.typeName))

/-- The verdict of the body of a successful response. -/
def bodyVerdict (body : List UInt8) : Except Failure Bool :=
  match Text.ofDocument body with
  | .error fault => .error (.badAnswer (.encoding fault))
  | .ok cs => documentVerdict (String.ofList cs)

/-- The verdict of a response. -/
def verdict (r : UsersResponse) : Except Failure Bool :=
  if r.status = 404 then .ok false
  else if 200 ≤ r.status ∧ r.status < 300 then bodyVerdict r.body
  else .error (.badAnswer .status)

end UsersResponse

end EventRelay
