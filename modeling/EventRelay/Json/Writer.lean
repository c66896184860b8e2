import EventRelay.Json.Basic
import EventRelay.Json.Text
import EventRelay.Number.FloatText

/-!
# Writing documents

The written form of a JSON value.  A `Layout` fixes the separators and the alphabet; the two
in use are the compact one of event envelopes and the spaced ASCII one of free-form payloads.
-/

namespace EventRelay.Json

/-- The decisions of a written form of documents. -/
structure Layout where
  /-- Between two items or members. -/
  itemSeparator : String
  /-- Between the name and the value of a member. -/
  memberSeparator : String
  /-- The written form of a string. -/
  quote : String → String

/-- No blanks, all of Unicode. -/
def Layout.compact : Layout := ⟨",", ":", Json.quote⟩

/-- One blank after each separator, ASCII alone. -/
def Layout.spaced : Layout := ⟨", ", ": ", Json.quoteAscii⟩

/-- Items in square brackets. -/
def Layout.array (l : Layout) (items : List String) : String :=
  "[" ++ l.itemSeparator.intercalate items ++ "]"

/-- Members in braces, each given by its name and the written form of its value. -/
def Layout.object (l : Layout) (members : List (String × String)) : String :=
  let written := members.map fun (name, value) => l.quote name ++ l.memberSeparator ++ value
  "\x7b" ++ l.itemSeparator.intercalate written ++ "\x7d"

/-- The written form of a truth value. -/
def boolText (b : Bool) : String := if b then "true" else "false"

mutual

/-- The written form of a value. -/
def write (l : Layout) : Json → String
  | null => "null"
  | bool b => boolText b
  | int n => toString n
  | float x => Number.FloatStyle.document.text x
  | text s => l.quote s
  | array items => l.array (writeItems l items)
  | object members => l.object (writeMembers l members)

/-- The written forms of the items of an array. -/
def writeItems (l : Layout) : List Json → List String
  | [] => []
  | v :: vs => write l v :: writeItems l vs

/-- The members of an object with the written forms of their values. -/
def writeMembers (l : Layout) : List (String × Json) → List (String × String)
  | [] => []
  | (name, v) :: ms => (name, write l v) :: writeMembers l ms

end

end EventRelay.Json
