import EventRelay.Web.Request
import EventRelay.Web.Response

/-!
# Requests from other origins

What a browser is told about a request that a page of another origin makes.  Every such response
allows credentials, and names the origin if it is an allowed one.  A request that only asks for
permission is answered at once, and never reaches the service.
-/

namespace EventRelay.Web.Cors

/-- The methods that pages may use. -/
def methods : List String := ["DELETE", "GET", "HEAD", "OPTIONS", "PATCH", "POST", "PUT", "QUERY"]

/-- Whether an origin is allowed; a star allows all. -/
def isAllowed (origins : List String) (origin : String) : Bool :=
  origins.contains "*" || origins.contains origin

/-- The headers that every response to a page of the origin carries. -/
def headers (origins : List String) (origin : String) : List (String × String) :=
  ("access-control-allow-credentials", "true") ::
    if isAllowed origins origin then [("access-control-allow-origin", origin)] else []

/-- What is wrong with a request for permission.  A private network is open to no page. -/
def objections (origins : List String) (origin method : String) (isPrivate : Bool) :
    List String :=
  (if isAllowed origins origin then [] else ["origin"]) ++
    (if methods.contains method then [] else ["method"]) ++
    if isPrivate then ["private-network"] else []

/-- The response to a request for permission. -/
def permission (origins : List String) (origin method : String) (wanted : Option String)
    (isPrivate : Bool) : Response :=
  let response := match objections origins origin method isPrivate with
    | [] => Response.plain 200 "OK"
    | os => .plain 400 ("Disallowed CORS " ++ ", ".intercalate os)
  response.withHeaders <| headers origins origin ++
    [("access-control-allow-methods", ", ".intercalate methods), ("access-control-max-age", "600")] ++
    (wanted.map fun names => ("access-control-allow-headers", names)).toList

/-- The response to a request that only asks for permission. -/
def permission? (origins : List String) (r : Request) : Option Response :=
  match r.header? "origin", r.header? "access-control-request-method" with
  | some origin, some method =>
    if r.verb = "OPTIONS" then
      some (permission origins origin method (r.header? "access-control-request-headers")
        (r.header? "access-control-request-private-network").isSome)
    else none
  | _, _ => none

/-- The headers that a request from another origin adds to its response. -/
def added (origins : List String) (r : Request) : List (String × String) :=
  match r.header? "origin" with
  | some origin => headers origins origin
  | none => []

end EventRelay.Web.Cors
