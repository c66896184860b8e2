import EventRelay.Breaker
import EventRelay.Event.Scalar
import EventRelay.Web.Cors
import EventRelay.Web.Description
import EventRelay.Web.Exposition
import EventRelay.Web.Route

/-!
# Replies

The responses of the parts of a service, and what is added to every response on its way out: the
headers for other origins, the time it took, and the number of the request.
-/

namespace EventRelay.Web

/-- The number of a request that brought none along; it is drawn anew each time. -/
def drawnId : String := "<generated>"

/-- What is shown of a breaker. -/
def breakerDocument (name : String) {τ : Type} (b : Breaker τ) : Json :=
  .object [("name", .text name), ("state", .text b.circuit.word),
    ("failure_count", .int b.failures), ("rejected_count", .int b.rejected)]

namespace Response

/-- The service is alive. -/
def alive (service : ServiceName) : Response :=
  document 200 (.object [("status", .text "ok"), ("service", .text service.word)])

/-- The service is ready, or is not for the given reasons. -/
def readiness (reasons : List String) (circuit : Option Json) : Response :=
  let shown := (circuit.map fun c => ("users_circuit", c)).toList
  match reasons with
  | [] => document 200 (.object (("status", .text "ready") :: shown))
  | rs =>
    document 503 <| .object <|
      [("status", .text "unavailable"), ("errors", .array (rs.map Json.text))] ++ shown

/-- Whether a user exists. -/
def existence (user : Int) (found : Bool) : Response :=
  document 200 (.object [("exists", .bool found), ("id", .int user)])

/-- The wording for a number in a path that is none. -/
def numberAdvice : Fault → String
  | .oversizedInteger =>
    "Unable to parse input string as an integer, exceeded maximum size"
  | _ => "Input should be a valid integer, unable to parse string as an integer"

/-- The number in a path is none. -/
def badNumber (number : String) (fault : Fault) : Response :=
  detail 422 <| .array [.object [("type", .text fault.word),
    ("loc", .array [.text "path", .text "user_id"]), ("msg", .text (numberAdvice fault)),
    ("input", .text number)]]

/-- The body as it goes out: a request for the head alone gets none. -/
def outgoingBody (r : Response) (request : Request) : Body :=
  if request.verb = "HEAD" then .text "" else r.body

/-- Lets a response out. -/
def outgoing (r : Response) (request : Request) : Response :=
  let r := r.withHeaders [("x-request-id", request.callerId?.getD drawnId)]
  { r with timed := true, body := r.outgoingBody request }

end Response

end EventRelay.Web
