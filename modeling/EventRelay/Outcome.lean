import EventRelay.Failure
import EventRelay.Time.Instant

/-!
# Scripted outcomes

What a dependency does on one call: it may take a while, and then raise, answer of its own
accord, or let the call through.  A script is a list of outcomes, one per call; when it is used
up, calls go through.
-/

namespace EventRelay

/-- What happens in a scripted call once it has taken its time. -/
inductive Turn (α : Type) where
  /-- The call goes through to the real thing. -/
  | through
  /-- The call raises. -/
  | raise (cause : Failure)
  /-- The call answers without the real thing being touched. -/
  | answer (value : α)

/-- One scripted call. -/
structure Outcome (α : Type) where
  /-- How long the call takes before anything else happens. -/
  delay : Span
  /-- What happens then. -/
  turn : Turn α

namespace Outcome

/-- The outcome of a call that is not scripted. -/
def plain {α : Type} : Outcome α := ⟨0, .through⟩

/-- Takes the next outcome off a script. -/
def next {α : Type} : List (Outcome α) → Outcome α × List (Outcome α)
  | [] => (plain, [])
  | o :: rest => (o, rest)

end Outcome

end EventRelay
