/-!
# Counters

The running totals that the program publishes, by name and labels.  A `Tally` holds the amounts
by which each has grown since the start, in the order of their first growth.
-/

namespace EventRelay

/-- A running total. -/
inductive Counter where
  /-- Committed changes of users, by operation. -/
  | userOperations (operation : String)
  /-- Committed changes of tasks, by operation. -/
  | taskOperations (operation : String)
  /-- Timed changes, committed or not, by entity and operation. -/
  | timedOperations (entity operation : String)
  /-- Outbox events accepted by the broker, by topic. -/
  | published (topic : String)
  /-- Failed sends, by topic and by what becomes of the event. -/
  | sendFailures (topic outcome : String)
  /-- Claims released by the watchdog. -/
  | staleReleased
  /-- Messages moved to a dead-letter topic, by their topic. -/
  | deadLettered (topic : String)
deriving DecidableEq, Repr

namespace Counter

/-- The name under which the total is published. -/
def name : Counter → String
  | userOperations _ => "user_operations_total"
  | taskOperations _ => "task_operations_total"
  | timedOperations _ _ => "operation_duration_seconds_count"
  | published _ => "outbox_published_total"
  | sendFailures _ _ => "outbox_send_failures_total"
  | staleReleased => "outbox_stale_released_total"
  | deadLettered _ => "messages_dead_lettered_total"

/-- The labels of the total, sorted by their names. -/
def labels : Counter → List (String × String)
  | userOperations operation => [("operation", operation)]
  | taskOperations operation => [("operation", operation)]
  | timedOperations entity operation => [("entity", entity), ("operation", operation)]
  | published topic => [("topic", topic)]
  | sendFailures topic outcome => [("outcome", outcome), ("topic", topic)]
  | staleReleased => []
  | deadLettered topic => [("topic", topic)]

end Counter

/-- How much each total has grown. -/
abbrev Tally := List (Counter × Nat)

namespace Tally

/-- The growth of one total. -/
def count (t : Tally) (c : Counter) : Nat :=
  match t with
  | [] => 0
  | (d, n) :: rest => if d = c then n else count rest c

/-- Lets one total grow. -/
def grow (t : Tally) (c : Counter) (by' : Nat) : Tally :=
  match t with
  | [] => [(c, by')]
  | (d, n) :: rest => if d = c then (d, n + by') :: rest else (d, n) :: grow rest c by'

end Tally

end EventRelay
