import EventRelay.Event.Record
import EventRelay.Event.Scalar
import EventRelay.Json.Reader

/-!
# Settings

The settings of a service, their defaults, and reading them from the environment.  Every setting
has a fixed name, which may be spelled in any case; all faulty settings are reported together, in
the order of their declaration.

The table `Settings.fields` lists each setting once, with its name and its place in the record;
reading and showing go through it.
-/

namespace EventRelay

/-- One of the two services. -/
inductive ServiceName where
  /-- The users service. -/
  | users
  /-- The tasks service. -/
  | tasks
deriving DecidableEq, Repr

/-- The word for a service. -/
def ServiceName.word : ServiceName → String
  | users => "users"
  | tasks => "tasks"

/-- The service of that word. -/
def ServiceName.ofWord? (s : String) : Option ServiceName :=
  [users, tasks].find? (·.word == s)

/-- The settings of a service. -/
structure Settings where
  /-- Which of the two services runs. -/
  serviceName : ServiceName := .tasks
  /-- The database account. -/
  databaseUser : String := ""
  /-- The password of the account. -/
  databasePassword : String := ""
  /-- The name of the database. -/
  databaseName : String := ""
  /-- The host of the database. -/
  databaseHost : String := "localhost"
  /-- The port of the database. -/
  databasePort : Int := 5432
  /-- How many database connections are kept. -/
  poolSize : Int := 10
  /-- How many more may be opened. -/
  poolOverflow : Int := 20
  /-- After how many seconds a connection is replaced. -/
  poolRecycle : Int := 300
  /-- The full address of the database, in place of its parts. -/
  explicitUrl : Option String := none
  /-- The address of the broker. -/
  brokerUrl : String := "redis://localhost:6379/0"
  /-- The number of partitions of every topic. -/
  partitions : Int := 3
  /-- The length to which streams are trimmed. -/
  streamLimit : Option Int := some 100000
  /-- The topic of events about users. -/
  userTopic : String := "user-events"
  /-- The topic of events about tasks. -/
  taskTopic : String := "task-events"
  /-- What a dead-letter topic adds to the name of its topic. -/
  deadLetterEnding : String := ".DLT"
  /-- Whether the service publishes its outbox. -/
  publisherEnabled : Bool := true
  /-- Seconds between two ticks of the publisher. -/
  pollInterval : Float := 5.0
  /-- How many events are claimed at once. -/
  outboxBatch : Int := 10
  /-- After how many failures an event is given up. -/
  outboxRetries : Int := 3
  /-- After how many seconds a claim is stale. -/
  staleAfter : Float := 60.0
  /-- How many seconds a send may take. -/
  sendTimeout : Float := 30.0
  /-- How many hours published events are kept. -/
  retentionHours : Int := 24
  /-- Seconds between two cleanups. -/
  cleanupInterval : Float := 86400.0
  /-- Whether the tasks service consumes user events. -/
  consumerEnabled : Bool := true
  /-- The group that consumes user events. -/
  consumerGroup : String := "tasks-service-group"
  /-- The group that consumes dead letters. -/
  deadLetterGroup : String := "tasks-service-dlt-group"
  /-- The name of this consumer; by default that of its host. -/
  consumerName : String := "<hostname>"
  /-- How many entries are read at once. -/
  consumerBatch : Int := 10
  /-- How many milliseconds a read waits. -/
  consumerBlockMs : Int := 5000
  /-- After how many milliseconds an entry is taken over. -/
  consumerIdleMs : Int := 60000
  /-- How often a delivery is tried. -/
  consumerAttempts : Int := 3
  /-- Seconds to wait after the first attempt. -/
  consumerBackoff : Float := 1.0
  /-- The factor from one wait to the next. -/
  consumerBackoffFactor : Float := 2.0
  /-- Whether free text is accepted as an event. -/
  legacyText : Bool := true
  /-- The address of the users service. -/
  usersUrl : String := "http://api-users:8081"
  /-- How many seconds it may take to answer. -/
  usersTimeout : Float := 5.0
  /-- How many seconds a cached answer is fresh. -/
  cacheTtl : Float := 300.0
  /-- How often the users service is asked. -/
  checkAttempts : Int := 3
  /-- Seconds to wait after the first time. -/
  checkBackoff : Float := 0.2
  /-- Whether a user counts as existing when nothing is known. -/
  checkFailOpen : Bool := true
  /-- How many failures open the circuit. -/
  circuitThreshold : Int := 5
  /-- How many seconds it stays open. -/
  circuitRecovery : Float := 30.0
  /-- The origins that browsers may call from. -/
  corsOrigins : List String := ["*"]

/-- A place in the settings, by the type of what stands there. -/
inductive SettingPlace where
  /-- A service. -/
  | service (get : Settings → ServiceName) (set : ServiceName → Settings → Settings)
  /-- A string. -/
  | text (get : Settings → String) (set : String → Settings → Settings)
  /-- A string or nothing. -/
  | optionalText (get : Settings → Option String) (set : Option String → Settings → Settings)
  /-- An integer. -/
  | int (get : Settings → Int) (set : Int → Settings → Settings)
  /-- An integer or nothing. -/
  | optionalInt (get : Settings → Option Int) (set : Option Int → Settings → Settings)
  /-- A number. -/
  | float (get : Settings → Float) (set : Float → Settings → Settings)
  /-- A truth value. -/
  | bool (get : Settings → Bool) (set : Bool → Settings → Settings)
  /-- A list of strings. -/
  | texts (get : Settings → List String) (set : List String → Settings → Settings)

/-- A setting. -/
structure SettingField where
  /-- Its name. -/
  name : String
  /-- Whether it has no default. -/
  required : Bool
  /-- Its place. -/
  place : SettingPlace

namespace Settings

/-- All settings, in the order of their declaration. -/
def fields : List SettingField :=
  [ ⟨"SERVICE_NAME", false, .service (·.serviceName) fun v s => { s with serviceName := v }⟩,
    ⟨"POSTGRES_USER", true, .text (·.databaseUser) fun v s => { s with databaseUser := v }⟩,
    ⟨"POSTGRES_PASSWORD", true, .text (·.databasePassword) fun v s => { s with databasePassword := v }⟩,
    ⟨"POSTGRES_DB", true, .text (·.databaseName) fun v s => { s with databaseName := v }⟩,
    ⟨"DB_HOST", false, .text (·.databaseHost) fun v s => { s with databaseHost := v }⟩,
    ⟨"DB_PORT", false, .int (·.databasePort) fun v s => { s with databasePort := v }⟩,
    ⟨"DB_POOL_SIZE", false, .int (·.poolSize) fun v s => { s with poolSize := v }⟩,
    ⟨"DB_MAX_OVERFLOW", false, .int (·.poolOverflow) fun v s => { s with poolOverflow := v }⟩,
    ⟨"DB_POOL_RECYCLE", false, .int (·.poolRecycle) fun v s => { s with poolRecycle := v }⟩,
    ⟨"DATABASE_URL", false, .optionalText (·.explicitUrl) fun v s => { s with explicitUrl := v }⟩,
    ⟨"REDIS_URL", false, .text (·.brokerUrl) fun v s => { s with brokerUrl := v }⟩,
    ⟨"BROKER_PARTITIONS", false, .int (·.partitions) fun v s => { s with partitions := v }⟩,
    ⟨"BROKER_STREAM_MAXLEN", false, .optionalInt (·.streamLimit) fun v s => { s with streamLimit := v }⟩,
    ⟨"USER_EVENTS_TOPIC", false, .text (·.userTopic) fun v s => { s with userTopic := v }⟩,
    ⟨"TASK_EVENTS_TOPIC", false, .text (·.taskTopic) fun v s => { s with taskTopic := v }⟩,
    ⟨"DLT_SUFFIX", false, .text (·.deadLetterEnding) fun v s => { s with deadLetterEnding := v }⟩,
    ⟨"OUTBOX_PUBLISHER_ENABLED", false, .bool (·.publisherEnabled) fun v s => { s with publisherEnabled := v }⟩,
    ⟨"OUTBOX_POLL_INTERVAL", false, .float (·.pollInterval) fun v s => { s with pollInterval := v }⟩,
    ⟨"OUTBOX_BATCH_SIZE", false, .int (·.outboxBatch) fun v s => { s with outboxBatch := v }⟩,
    ⟨"OUTBOX_MAX_RETRIES", false, .int (·.outboxRetries) fun v s => { s with outboxRetries := v }⟩,
    ⟨"OUTBOX_STALE_AFTER_SECONDS", false, .float (·.staleAfter) fun v s => { s with staleAfter := v }⟩,
    ⟨"OUTBOX_SEND_TIMEOUT", false, .float (·.sendTimeout) fun v s => { s with sendTimeout := v }⟩,
    ⟨"OUTBOX_RETENTION_HOURS", false, .int (·.retentionHours) fun v s => { s with retentionHours := v }⟩,
    ⟨"OUTBOX_CLEANUP_INTERVAL", false, .float (·.cleanupInterval) fun v s => { s with cleanupInterval := v }⟩,
    ⟨"CONSUMER_ENABLED", false, .bool (·.consumerEnabled) fun v s => { s with consumerEnabled := v }⟩,
    ⟨"CONSUMER_GROUP", false, .text (·.consumerGroup) fun v s => { s with consumerGroup := v }⟩,
    ⟨"DLT_CONSUMER_GROUP", false, .text (·.deadLetterGroup) fun v s => { s with deadLetterGroup := v }⟩,
    ⟨"CONSUMER_NAME", false, .text (·.consumerName) fun v s => { s with consumerName := v }⟩,
    ⟨"CONSUMER_BATCH_SIZE", false, .int (·.consumerBatch) fun v s => { s with consumerBatch := v }⟩,
    ⟨"CONSUMER_BLOCK_MS", false, .int (·.consumerBlockMs) fun v s => { s with consumerBlockMs := v }⟩,
    ⟨"CONSUMER_CLAIM_IDLE_MS", false, .int (·.consumerIdleMs) fun v s => { s with consumerIdleMs := v }⟩,
    ⟨"CONSUMER_MAX_ATTEMPTS", false, .int (·.consumerAttempts) fun v s => { s with consumerAttempts := v }⟩,
    ⟨"CONSUMER_BACKOFF_SECONDS", false, .float (·.consumerBackoff) fun v s => { s with consumerBackoff := v }⟩,
    ⟨"CONSUMER_BACKOFF_MULTIPLIER", false, .float (·.consumerBackoffFactor) fun v s => { s with consumerBackoffFactor := v }⟩,
    ⟨"LEGACY_PAYLOAD_FALLBACK", false, .bool (·.legacyText) fun v s => { s with legacyText := v }⟩,
    ⟨"USERS_SERVICE_URL", false, .text (·.usersUrl) fun v s => { s with usersUrl := v }⟩,
    ⟨"USERS_SERVICE_TIMEOUT", false, .float (·.usersTimeout) fun v s => { s with usersTimeout := v }⟩,
    ⟨"USER_CACHE_TTL_SECONDS", false, .float (·.cacheTtl) fun v s => { s with cacheTtl := v }⟩,
    ⟨"EXISTENCE_RETRY_ATTEMPTS", false, .int (·.checkAttempts) fun v s => { s with checkAttempts := v }⟩,
    ⟨"EXISTENCE_RETRY_BACKOFF_SECONDS", false, .float (·.checkBackoff) fun v s => { s with checkBackoff := v }⟩,
    ⟨"EXISTENCE_FAIL_OPEN", false, .bool (·.checkFailOpen) fun v s => { s with checkFailOpen := v }⟩,
    ⟨"CIRCUIT_FAILURE_THRESHOLD", false, .int (·.circuitThreshold) fun v s => { s with circuitThreshold := v }⟩,
    ⟨"CIRCUIT_RECOVERY_SECONDS", false, .float (·.circuitRecovery) fun v s => { s with circuitRecovery := v }⟩,
    ⟨"CORS_ORIGINS", false, .texts (·.corsOrigins) fun v s => { s with corsOrigins := v }⟩]

/-! ## Reading the environment -/

/-- Why settings could not be read. -/
inductive SettingsFailure where
  /-- Some settings are missing or faulty. -/
  | faulty (problems : List Problem)
  /-- A setting that is to be a document is none. -/
  | unreadable (name : String)
  /-- A setting is a document that nests deeper than is read. -/
  | tooDeep
deriving DecidableEq, Repr

/-- The name under which the failure is reported. -/
def SettingsFailure.kind : SettingsFailure → String
  | faulty _ => "ValidationError"
  | unreadable _ => "SettingsError"
  | tooDeep => "RecursionError"

/-- The fixed wording of a failure, if it has one. -/
def SettingsFailure.message? : SettingsFailure → Option String
  | unreadable name =>
    some ("error parsing value for field \"" ++ name ++ "\" from source \"EnvSettingsSource\"")
  | _ => none

/-- Reads a list of strings from the items of a document. -/
def textsOf (name : String) (index : Nat) : List Json → Checked (List String)
  | [] => .ok []
  | .text s :: rest =>
    match textsOf name (index + 1) rest with
    | .ok ss => .ok (s :: ss)
    | .error ps => .error ps
  | _ :: rest =>
    let problem : Problem := ⟨.noText, [.field name, .item index]⟩
    match textsOf name (index + 1) rest with
    | .ok _ => .error [problem]
    | .error ps => .error (problem :: ps)

/-- A change of the settings, checked; or the news that a document could not be read. -/
abbrev Change := Except SettingsFailure (Checked (Settings → Settings))

/-- Reads one value of the environment into its place.  A list that is given as `null` is not
given at all. -/
def readPlace (name : String) (place : SettingPlace) (raw : String) : Change :=
  let located {α : Type} (r : Except Fault α) : Checked α :=
    r.mapError fun fault => [⟨fault, [.field name]⟩]
  match place with
  | .service _ set =>
    .ok <| match ServiceName.ofWord? raw with
      | some v => .ok (set v)
      | none => .error [⟨.outsideChoice, [.field name]⟩]
  | .text _ set => .ok (.ok (set raw))
  | .optionalText _ set => .ok (.ok (set (some raw)))
  | .int _ set => .ok ((located (Scalar.integer raw)).map set)
  | .optionalInt _ set => .ok ((located (Scalar.integer raw)).map fun n => set (some n))
  | .float _ set => .ok ((located (Scalar.number raw)).map set)
  | .bool _ set => .ok ((located (Scalar.bool raw)).map set)
  | .texts _ set =>
    match Json.read .lenient raw with
    | .error (.tooDeep _) => .error .tooDeep
    | .error _ => .error (.unreadable name)
    | .ok .null => .ok (.ok id)
    | .ok (.array items) => .ok ((textsOf name 0 items).map set)
    | .ok _ => .ok (.error [⟨.noList, [.field name]⟩])

/-- A letter in small; the sign of the kelvin is a capital K like any other. -/
def small (c : Char) : Char := if c = '\u212a' then 'k' else c.toLower

/-- The value of a variable, in any spelling of its name; the last one counts. -/
def valueOf? (name : String) (env : List (String × String)) : Option String :=
  (env.reverse.find? fun (n, _) => n.map small == name.map small).map (·.2)

/-- Reads one setting. -/
def readField (env : List (String × String)) (f : SettingField) : Change :=
  match valueOf? f.name env with
  | some raw => readPlace f.name f.place raw
  | none => .ok (if f.required then .error [⟨.missing, [.field f.name]⟩] else .ok id)

/-- Puts changes together, in order; all problems are kept. -/
def applyAll : List (Checked (Settings → Settings)) → Checked Settings → Checked Settings
  | [], s => s
  | .ok f :: rest, .ok s => applyAll rest (.ok (f s))
  | .ok _ :: rest, .error ps => applyAll rest (.error ps)
  | .error ps :: rest, .ok _ => applyAll rest (.error ps)
  | .error ps :: rest, .error qs => applyAll rest (.error (qs ++ ps))

/-- The settings that the environment gives. -/
def ofEnvironment (env : List (String × String)) : Except SettingsFailure Settings :=
  match fields.mapM (readField env) with
  | .error e => .error e
  | .ok changes =>
    match applyAll changes (.ok {}) with
    | .ok s => .ok s
    | .error ps => .error (.faulty ps)

/-- The address of the database: the explicit one, or else put together from its parts. -/
def databaseUrl (s : Settings) : String :=
  match s.explicitUrl with
  | some url => if url = "" then parts else url
  | none => parts
where
  /-- The address put together from its parts. -/
  parts : String :=
    s!"postgresql+asyncpg://{s.databaseUser}:{s.databasePassword}" ++
      s!"@{s.databaseHost}:{s.databasePort}/{s.databaseName}"

end Settings

end EventRelay
