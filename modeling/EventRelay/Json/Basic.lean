/-!
# Structured documents

The values of a JSON document.  Integers are exact and apart from floating-point numbers; an
object keeps its members in the order in which they were written, repeated names included.

The policy on repeated names is in the look-up: the last member of a name is the one that
counts.
-/

namespace EventRelay

/-- A JSON value. -/
inductive Json where
  /-- The value `null`. -/
  | null
  /-- A truth value. -/
  | bool (value : Bool)
  /-- A number written without fraction and exponent. -/
  | int (value : Int)
  /-- Any other number. -/
  | float (value : Float)
  /-- A string. -/
  | text (value : String)
  /-- An array. -/
  | array (items : List Json)
  /-- An object, its members in written order. -/
  | object (members : List (String × Json))
deriving Inhabited

namespace Json

/-- The last member of that name among the members of an object. -/
def lastMember? (name : String) (members : List (String × Json)) : Option Json :=
  (members.reverse.find? (·.1 == name)).map (·.2)

/-- The member of that name, if the value is an object that has one. -/
def member? (name : String) : Json → Option Json
  | object members => lastMember? name members
  | _ => none

/-- Whether a value counts as true where a condition is expected: everything does but `null`,
`false`, zero, and the empty string, array and object. -/
def isTruthy : Json → Bool
  | null => false
  | bool b => b
  | int n => n != 0
  | float x => !(x == 0.0)
  | text s => s != ""
  | array items => !items.isEmpty
  | object members => !members.isEmpty

end Json

end EventRelay
