import EventRelay.Web.Response

/-!
# The exposition of the counters

The page on which a service shows its counters: of each family what it counts and of which type
it is.
-/

namespace EventRelay.Web

/-- A family of counters as it is shown. -/
structure Family where
  /-- The name. -/
  name : String
  /-- The type. -/
  type : String
  /-- What it counts. -/
  help : String
deriving DecidableEq, Repr

/-- All families, by name. -/
def families : List Family :=
  [ ⟨"messages_dead_lettered_total", "counter",
      "Total number of inbound messages moved to a dead-letter topic"⟩,
    ⟨"operation_duration_seconds", "histogram",
      "Duration of user and task mutations, including the outbox write"⟩,
    ⟨"outbox_published_total", "counter",
      "Total number of outbox events acknowledged by the broker"⟩,
    ⟨"outbox_send_failures_total", "counter", "Total number of failed outbox sends"⟩,
    ⟨"outbox_stale_released_total", "counter",
      "Total number of PROCESSING outbox rows released by the watchdog"⟩,
    ⟨"task_operations_total", "counter", "Total number of committed task mutations"⟩,
    ⟨"user_operations_total", "counter", "Total number of committed user mutations"⟩ ]

/-- The lines that describe the families. -/
def exposition : List String :=
  families.map (fun f => s!"# HELP {f.name} {f.help}") ++
    families.map fun f => s!"# TYPE {f.name} {f.type}"

/-- The page. -/
def Response.exposition : Response :=
  ⟨200, [("cache-control", "no-cache, no-store, must-revalidate"),
    ("content-type", "text/plain; version=1.0.0; charset=utf-8")], false, .lines Web.exposition⟩

end EventRelay.Web
