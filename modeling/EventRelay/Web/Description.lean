import EventRelay.Settings
import EventRelay.Web.Response

/-!
# The description of a service

The document in which a service describes what it answers over the web: its parts, their
parameters, and the shapes of their responses.  Beside the document stand pages that show it.

All parts are described alike, so a part is a record and the document is written from the list
of them.
-/

namespace EventRelay.Web

namespace Shape

/-- A shape of a named type with a title. -/
def titled (title type : String) (more : List (String × Json)) : Json :=
  .object (("title", .text title) :: ("type", .text type) :: more)

/-- The shape of the given name in the document. -/
def named (name : String) : Json :=
  .object [("$ref", .text ("#/components/schemas/" ++ name))]

/-- An object with members of the given shapes, of which some have to be there. -/
def record (title : String) (members : List (String × Json)) (required : List String) : Json :=
  titled title "object" <|
    ("properties", .object members) ::
      if required = [] then [] else [("required", .array (required.map Json.text))]

/-- The answer whether a user exists. -/
def userExists : Json :=
  record "UserExistsResponse"
    [("exists", titled "Exists" "boolean" []), ("id", titled "Id" "integer" [])]
    ["exists", "id"]

/-- A step on the way to a faulty value. -/
def pathStep : Json :=
  .object [("anyOf", .array
    [.object [("type", .text "string")], .object [("type", .text "integer")]])]

/-- A problem of a request. -/
def problem : Json :=
  record "ValidationError"
    [("loc", titled "Location" "array" [("items", pathStep)]),
      ("msg", titled "Message" "string" []), ("type", titled "Error Type" "string" []),
      ("input", .object [("title", .text "Input")]), ("ctx", titled "Context" "object" [])]
    ["loc", "msg", "type"]

/-- All problems of a request. -/
def problems : Json :=
  record "HTTPValidationError"
    [("detail", titled "Detail" "array" [("items", named "ValidationError")])] []

end Shape

/-- A part of a service as it is described. -/
structure Endpoint where
  /-- Its path; a parameter stands in braces. -/
  path : String
  /-- The name by which it is identified. -/
  name : String
  /-- The name by which it is shown. -/
  summary : String
  /-- What it belongs to. -/
  tag : String
  /-- What it is for, if that is told. -/
  purpose : Option String := none
  /-- The names and titles of the numbers in its path. -/
  parameters : List (String × String) := []
  /-- The shape of its answer. -/
  answer : Json := .object []

namespace Endpoint

/-- A response with a document of the given shape. -/
def response (meaning : String) (shape : Json) : Json :=
  .object [("description", .text meaning),
    ("content", .object [("application/json", .object [("schema", shape)])])]

/-- The identifier of a part: its name and path, in letters and underscores. -/
def identifier (e : Endpoint) : String :=
  (e.name ++ e.path).map (fun c => if c.isAlphanum then c else '_') ++ "_get"

/-- The description of a number in the path. -/
def parameter (name title : String) : Json :=
  .object [("name", .text name), ("in", .text "path"), ("required", .bool true),
    ("schema", Shape.titled title "integer" [])]

/-- The responses of a part; one with parameters may find fault with them. -/
def responses (e : Endpoint) : List (String × Json) :=
  ("200", response "Successful Response" e.answer) ::
    if e.parameters = [] then []
    else [("422", response "Validation Error" (Shape.named "HTTPValidationError"))]

/-- The description of a part. -/
def document (e : Endpoint) : String × Json :=
  let parameters : List (String × Json) :=
    if e.parameters = [] then []
    else [("parameters", .array (e.parameters.map fun (n, t) => parameter n t))]
  (e.path, .object [("get", .object <|
    [("tags", .array [.text e.tag]), ("summary", .text e.summary)] ++
      (e.purpose.map fun p => ("description", Json.text p)).toList ++
      [("operationId", .text e.identifier)] ++ parameters ++
      [("responses", .object e.responses)])])

end Endpoint

/-- The parts that every service has. -/
def commonEndpoints : List Endpoint :=
  [ { path := "/healthz", name := "healthz", summary := "Healthz", tag := "health"
      answer := Shape.titled "Response Healthz Healthz Get" "object"
        [("additionalProperties", .object [("type", .text "string")])] },
    { path := "/readyz", name := "readyz", summary := "Readyz", tag := "health" },
    { path := "/metrics", name := "metrics", summary := "Metrics", tag := "observability"
      purpose := some "Prometheus scrape endpoint." } ]

/-- The part that only the users service has. -/
def userEndpoint : Endpoint :=
  { path := "/users/\x7buser_id\x7d/exists", name := "user_exists", summary := "User Exists"
    tag := "users", purpose := some "Public existence check used by the tasks service."
    parameters := [("user_id", "User Id")], answer := Shape.named "UserExistsResponse" }

/-- The parts of a service. -/
def endpoints : ServiceName → List Endpoint
  | .users => commonEndpoints ++ [userEndpoint]
  | .tasks => commonEndpoints

/-- The shapes that the parts of a service refer to, by name. -/
def shapes : ServiceName → List (String × Json)
  | .users =>
    [("HTTPValidationError", Shape.problems), ("UserExistsResponse", Shape.userExists),
      ("ValidationError", Shape.problem)]
  | .tasks => []

/-- The title of a service. -/
def serviceTitle : ServiceName → String
  | .users => "TaskHub Users Service"
  | .tasks => "TaskHub Tasks Service"

/-- The document that describes a service. -/
def description (service : ServiceName) : Json :=
  let shared := shapes service
  .object <|
    [("openapi", .text "3.1.0"),
      ("info", .object [("title", .text (serviceTitle service)), ("version", .text "0.1.0")]),
      ("paths", .object ((endpoints service).map Endpoint.document))] ++
    if shared.isEmpty then [] else [("components", .object [("schemas", .object shared)])]

/-- The type of a page. -/
def pageType : String × String := ("content-type", "text/html; charset=utf-8")

/-- A page that shows the description of a service. -/
def Response.manual (service : ServiceName) : Response :=
  ⟨200, [pageType], false, .text ("<!DOCTYPE html>\n<title>" ++ serviceTitle service ++ "</title>\n")⟩

end EventRelay.Web
