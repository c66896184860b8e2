import EventRelay.Launch

/-!
# Command line

Reads the settings from the environment and prints how the service that they name is to be
served.  Settings that cannot be read are told on the error stream, one problem on a line.
-/

namespace EventRelay

/-- The plan as it is printed. -/
def LaunchPlan.text (p : LaunchPlan) : String :=
  s!"{p.application} factory={p.isFactory} host={p.host} port={p.port} log_level={p.logLevel}"

/-- Where a problem lies, as it is printed. -/
def PathStep.text : PathStep → String
  | field name => name
  | item index => toString index

/-- A problem as it is printed. -/
def Problem.text (p : Problem) : String :=
  ".".intercalate (p.path.map PathStep.text) ++ ": " ++ p.fault.word

/-- The lines that tell why settings could not be read. -/
def Settings.SettingsFailure.lines (f : Settings.SettingsFailure) : List String :=
  match f with
  | .faulty problems => problems.map Problem.text
  | .unreadable _ => f.message?.toList
  | .tooDeep => [f.kind]

/-- The settings that the environment of the process gives. -/
def readSettings : IO (Except Settings.SettingsFailure Settings) := do
  let values ← Settings.fields.mapM fun f => do
    return (← IO.getEnv f.name).map fun v => (f.name, v)
  return Settings.ofEnvironment (values.filterMap id)

end EventRelay

/-- Prints how the service of the settings is to be served. -/
def main : IO UInt32 := do
  match ← EventRelay.readSettings with
  | .ok settings =>
    IO.println (EventRelay.LaunchPlan.of settings.serviceName).text
    return 0
  | .error failure =>
    failure.lines.forM IO.eprintln
    return 1
