import EventRelay.Failure
import EventRelay.Text.Utf8

/-!
# Requests

A request over the web, and the path that its target names: without query and fragment, with the
segments that lead nowhere or back carried out, and with percent-encoded bytes read as text,
whatever they are.

Not every request can be made: a target is written in characters that can be seen, and headers in
ASCII.
-/

namespace EventRelay.Web

/-- A request. -/
structure Request where
  /-- The method. -/
  method : String
  /-- The target, as it is written. -/
  target : String
  /-- The headers, in order. -/
  headers : List (String × String)
deriving DecidableEq, Repr

/-- Reads percent-encoded bytes; a percent sign without two digits after it stands for itself. -/
def percentDecode : List Char → List UInt8
  | [] => []
  | '%' :: a :: b :: r =>
    match Json.hexValue? a, Json.hexValue? b with
    | some x, some y => (16 * x + y).toUInt8 :: percentDecode r
    | _, _ => '%'.toNat.toUInt8 :: percentDecode (a :: b :: r)
  | c :: r => String.utf8EncodeChar c ++ percentDecode r
  termination_by cs => cs.length

/-- The segments of a path with the dots among them carried out: one dot stays where it is, two
go back, though never over the root. -/
def resolveDots (segments : List String) : List String :=
  List.reverse <| segments.foldl (fun done segment =>
    if segment = "." then done
    else if segment = ".." then if done = [""] then done else done.drop 1
    else segment :: done) []

namespace Request

/-- The most characters that a target may have. -/
def longestTarget : Nat := 65536

/-- Why the request cannot be made, if it cannot. -/
def fault? (r : Request) : Option Failure :=
  if longestTarget < r.target.length || r.target.toList.any (fun c => c < ' ' || c = '\x7f') then
    some .badTarget
  else (r.headers.flatMap fun (n, v) => [n, v]).findSome? Text.asciiFault? |>.map .badHeader

/-- The method; methods are in capitals. -/
def verb (r : Request) : String := r.method.toUpper

/-- The value of a header; names are the same in upper and lower case. -/
def header? (r : Request) (name : String) : Option String :=
  (r.headers.find? fun h => h.1.toLower = name).map (·.2)

/-- The value of a header that is there and not empty. -/
def filledHeader? (r : Request) (name : String) : Option String :=
  (r.header? name).filter (· ≠ "")

/-- The path of the target. -/
def path (r : Request) : String :=
  let written := String.ofList (r.target.toList.takeWhile fun c => c ≠ '?' && c ≠ '#')
  match "/".intercalate (resolveDots (written.splitOn "/")) with
  | "" => "/"
  | path => String.ofList (Text.ofBytes (percentDecode path.toList))

/-- The number of a request: that under which the caller knows it, under either of two names. -/
def callerId? (r : Request) : Option String :=
  match r.filledHeader? "x-request-id" with
  | some id => some id
  | none => r.filledHeader? "x-correlation-id"

end Request

end EventRelay.Web
