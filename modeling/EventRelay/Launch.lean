import EventRelay.Settings

/-!
# Launching a service

How a service is to be served: which application, and where it listens.
-/

namespace EventRelay

/-- What the web server is told. -/
structure LaunchPlan where
  /-- The application to serve. -/
  application : String
  /-- Whether the application has to be built first. -/
  isFactory : Bool
  /-- The address to listen on. -/
  host : String
  /-- The port to listen on. -/
  port : Nat
  /-- How much the server tells. -/
  logLevel : String
deriving DecidableEq, Repr

/-- The port of a service. -/
def ServiceName.port : ServiceName → Nat
  | users => 8081
  | tasks => 8082

/-- The plan for a service. -/
def LaunchPlan.of (service : ServiceName) : LaunchPlan :=
  ⟨"taskhub.app:create_app", true, "0.0.0.0", service.port, "info"⟩

end EventRelay
