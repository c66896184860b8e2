import EventRelay.Failure
import EventRelay.Json.Basic

/-!
# Responses

What a service answers over the web, and which answer each cause of failure gives.  A cause that
the service does not know is not explained to the caller.
-/

namespace EventRelay.Web

/-- The body of a response. -/
inductive Body where
  /-- A document. -/
  | document (v : Json)
  /-- A text. -/
  | text (s : String)
  /-- Lines of text. -/
  | lines (ls : List String)

/-- A response. -/
structure Response where
  /-- The status. -/
  status : Nat
  /-- The headers, in order. -/
  headers : List (String × String)
  /-- Whether it says how long it took. -/
  timed : Bool
  /-- The body. -/
  body : Body

/-- The type of plain text. -/
def plainType : String × String := ("content-type", "text/plain; charset=utf-8")

namespace Response

/-- A document as a response. -/
def document (status : Nat) (v : Json) : Response :=
  ⟨status, [("content-type", "application/json")], false, .document v⟩

/-- Plain text as a response. -/
def plain (status : Nat) (s : String) : Response := ⟨status, [plainType], false, .text s⟩

/-- A response that explains itself. -/
def detail (status : Nat) (v : Json) : Response := document status (.object [("detail", v)])

/-- Adds headers. -/
def withHeaders (r : Response) (hs : List (String × String)) : Response :=
  { r with headers := r.headers ++ hs }

/-- The response to a path that is not served. -/
def notFound : Response := detail 404 (.text "Not Found")

/-- The response to a method that is not served. -/
def methodNotAllowed (allowed : List String) : Response :=
  (detail 405 (.text "Method Not Allowed")).withHeaders [("allow", ", ".intercalate allowed)]

/-- The response that sends the caller to the path without its final slashes. -/
def redirect : Response := ⟨307, [], false, .text ""⟩

/-- The response when the service itself is at fault. -/
def serverError : Response := plain 500 "Internal Server Error"

/-- The status by which a known cause is told. -/
def statusOf? (f : Failure) : Option Nat :=
  match f.kind with
  | "NotFoundError" => some 404
  | "UserNotFoundError" => some 404
  | "ConflictError" => some 409
  | "ValidationError" => some 422
  | "ServiceUnavailableError" => some 503
  | _ => none

/-- The response to a known cause. -/
def ofFailure? (f : Failure) : Option Response :=
  (statusOf? f).map fun status => detail status (.text f.message)

end Response

end EventRelay.Web
