import EventRelay.Settings
import EventRelay.Web.Request

/-!
# Routes

Which part of a service a path names.  A path may end in one line break; one with slashes too
many at its end leads to the path without them.  Most parts answer to one method only.
-/

namespace EventRelay.Web

/-- A part of a service that answers over the web. -/
inductive Route where
  /-- Whether the service is alive. -/
  | alive
  /-- Whether the service is ready. -/
  | ready
  /-- The counters. -/
  | metrics
  /-- Whether a user exists; the number is as it stands in the path. -/
  | userExists (number : String)
  /-- The document that describes the service. -/
  | description
  /-- A page that shows the description. -/
  | manual
deriving DecidableEq, Repr

/-- The path without one line break at its end. -/
def withoutBreak (path : String) : String :=
  match path.toList.reverse with
  | '\n' :: r => String.ofList r.reverse
  | _ => path

/-- The part that a path names. -/
def Route.ofPath? (service : ServiceName) (path : String) : Option Route :=
  match (withoutBreak path).splitOn "/" with
  | ["", "healthz"] => some .alive
  | ["", "readyz"] => some .ready
  | ["", "metrics"] => some .metrics
  | ["", "openapi.json"] => some .description
  | ["", "docs"] => some .manual
  | ["", "docs", "oauth2-redirect"] => some .manual
  | ["", "redoc"] => some .manual
  | ["", "users", number, "exists"] =>
    if service = .users ∧ number ≠ "" then some (.userExists number) else none
  | _ => none

/-- The methods that a part answers to. -/
def Route.methods : Route → List String
  | description => ["GET", "HEAD"]
  | manual => ["GET", "HEAD"]
  | _ => ["GET"]

/-- The path without its final slashes, if it has any and is not the root. -/
def trimmedPath? (path : String) : Option String :=
  let cs := path.toList.reverse
  if path ≠ "/" ∧ cs.head? = some '/' then
    some (String.ofList (cs.dropWhile (· = '/')).reverse)
  else none

/-- Where a request leads. -/
inductive Destination where
  /-- To a part of the service. -/
  | route (r : Route)
  /-- To a part that answers only to other methods. -/
  | wrongMethod (allowed : List String)
  /-- To the path without its final slashes. -/
  | elsewhere
  /-- To nothing. -/
  | nowhere
deriving DecidableEq, Repr

/-- Where a request leads. -/
def Request.destination (r : Request) (service : ServiceName) : Destination :=
  match Route.ofPath? service r.path with
  | some route =>
    if route.methods.contains r.verb then .route route else .wrongMethod route.methods
  | none =>
    match (trimmedPath? r.path).bind (Route.ofPath? service) with
    | some _ => .elsewhere
    | none => .nowhere

end EventRelay.Web
