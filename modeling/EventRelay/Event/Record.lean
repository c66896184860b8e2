import EventRelay.Problem

/-!
# Records of fields

Building a record from the members of a document.  Each field may be given under two names, the
one of the wire before the one of the record; every field is checked, and all problems are
reported in the order of the fields.
-/

namespace EventRelay

/-- A value, or all that is wrong with it. -/
abbrev Checked (α : Type) := Except (List Problem) α

namespace Checked

/-- Applies a checked function to a checked argument; the problems of both are kept. -/
def apply {α β : Type} (f : Checked (α → β)) (x : Checked α) : Checked β :=
  match f, x with
  | .ok f, .ok x => .ok (f x)
  | .ok _, .error ps => .error ps
  | .error ps, .ok _ => .error ps
  | .error ps, .error qs => .error (ps ++ qs)

end Checked

/-- A field of a record, read from members with values of type `σ`. -/
structure Slot (σ α : Type) where
  /-- The name on the wire. -/
  wireName : String
  /-- The name in the record. -/
  name : String
  /-- The reading of a value that is given. -/
  check : σ → Except Fault α
  /-- The value of the field when none is given. -/
  absent : Option α

namespace Slot

/-- The last member of that name. -/
def lookup {σ : Type} (name : String) (members : List (String × σ)) : Option σ :=
  (members.reverse.find? (·.1 == name)).map (·.2)

/-- The value given for the field, and the name under which it is given. -/
def given? {σ α : Type} (s : Slot σ α) (members : List (String × σ)) : Option (String × σ) :=
  match lookup s.wireName members with
  | some v => some (s.wireName, v)
  | none => (lookup s.name members).map (s.name, ·)

/-- Reads the field.  A problem names the field as it was given; a missing one is named as on
the wire. -/
def read {σ α : Type} (s : Slot σ α) (members : List (String × σ)) : Checked α :=
  match s.given? members with
  | some (name, v) =>
    match s.check v with
    | .ok a => .ok a
    | .error fault => .error [⟨fault, [.field name]⟩]
  | none =>
    match s.absent with
    | some a => .ok a
    | none => .error [⟨.missing, [.field s.wireName]⟩]

end Slot

end EventRelay
