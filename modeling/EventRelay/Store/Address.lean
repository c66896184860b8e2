import EventRelay.Number.Notation
import EventRelay.Payload.ValueFault
import EventRelay.Settings

/-!
# Addresses of databases

An address names a kind of database and a driver that talks to it, and then a place: a user, a
host with a port, and the rest.  `ConnectionPool.ofAddress` reads as much of it as is needed to say
how connections will be kept, or why there can be none.

Databases are talked to without blocking; a driver that blocks, or that is not there, is refused.
-/

namespace EventRelay

/-- Why no connections can be had for an address. -/
inductive AddressFault where
  /-- The text is no address. -/
  | malformed
  /-- The port is no number. -/
  | unreadablePort (written : String)
  /-- A port is announced and missing. -/
  | emptyPort
  /-- More than one driver is named. -/
  | severalDrivers
  /-- The kind of database or its driver is unknown. -/
  | unknownDriver
  /-- The driver is known and not there. -/
  | absentDriver
  /-- The driver blocks. -/
  | blockingDriver
deriving DecidableEq, Repr

namespace AddressFault

/-- The name under which the fault is reported. -/
def kind : AddressFault → String
  | malformed => "ArgumentError"
  | unreadablePort _ => "ValueError"
  | emptyPort => "TypeError"
  | severalDrivers => "ValueError"
  | unknownDriver => "NoSuchModuleError"
  | absentDriver => "ModuleNotFoundError"
  | blockingDriver => "InvalidRequestError"

/-- The fixed wording of the fault, if it has one. -/
def message? : AddressFault → Option String
  | unreadablePort written => some (ValueFault.message (.integer 10 written))
  | emptyPort => some "Port argument must be an integer or None"
  | severalDrivers => some "too many values to unpack (expected 2)"
  | _ => none

end AddressFault

/-! ## Drivers -/

/-- How a driver can be used. -/
inductive DriverUse where
  /-- It is there and does not block. -/
  | ready
  /-- It is there and blocks. -/
  | blocking
  /-- It is not there. -/
  | absent
deriving DecidableEq, Repr

/-- A driver for a kind of database. -/
structure DatabaseDriver where
  /-- The kind of database. -/
  dialect : String
  /-- The name of the driver. -/
  name : String
  /-- How it can be used. -/
  use : DriverUse
deriving DecidableEq, Repr

namespace DatabaseDriver

/-- The drivers that two related kinds of database share. -/
def sharedNames : List String :=
  ["mysqldb", "pymysql", "aiomysql", "asyncmy", "cymysql", "mariadbconnector", "mysqlconnector",
    "pyodbc"]

/-- All drivers; the first of a kind is the one for addresses that name none. -/
def all : List DatabaseDriver :=
  [ ⟨"sqlite", "pysqlite", .blocking⟩, ⟨"sqlite", "aiosqlite", .ready⟩,
    ⟨"sqlite", "pysqlcipher", .absent⟩,
    ⟨"postgresql", "psycopg2", .absent⟩, ⟨"postgresql", "asyncpg", .ready⟩,
    ⟨"postgresql", "psycopg", .absent⟩, ⟨"postgresql", "psycopg_async", .absent⟩,
    ⟨"postgresql", "psycopg2cffi", .absent⟩, ⟨"postgresql", "pg8000", .absent⟩,
    ⟨"oracle", "cx_oracle", .absent⟩, ⟨"oracle", "oracledb", .absent⟩,
    ⟨"mssql", "pyodbc", .absent⟩, ⟨"mssql", "pymssql", .absent⟩,
    ⟨"mssql", "aioodbc", .absent⟩ ] ++
  sharedNames.map (⟨"mysql", ·, .absent⟩) ++ sharedNames.map (⟨"mariadb", ·, .absent⟩)

/-- The driver that the front of an address names: a kind of database, and perhaps a driver after
a plus sign. -/
def ofName (name : String) : Except AddressFault DatabaseDriver :=
  let found? : Except AddressFault (Option DatabaseDriver) := match name.splitOn "+" with
    | [dialect] => .ok (all.find? (·.dialect = dialect))
    | [dialect, driver] => .ok (all.find? fun d => d.dialect = dialect && d.name = driver)
    | _ => .error .severalDrivers
  match found? with
  | .error e => .error e
  | .ok none => .error .unknownDriver
  | .ok (some d) => if d.use = .absent then .error .absentDriver else .ok d

end DatabaseDriver

/-! ## Addresses -/

namespace Address

/-- Whether the character may stand in the front of an address. -/
def isNameChar (c : Char) : Bool := c.isAlphanum || c = '_' || c = '+'

/-- Splits the front of an address off: the name before a colon and two slashes. -/
def name? (cs : List Char) : Option (String × List Char) :=
  match cs.takeWhile isNameChar, cs.dropWhile isNameChar with
  | [], _ => none
  | name, ':' :: '/' :: '/' :: r => some (String.ofList name, r)
  | _, _ => none

/-- What follows the last character of the given kind. -/
def afterLast (mark : Char) (cs : List Char) : List Char :=
  (cs.reverse.takeWhile (· ≠ mark)).reverse

/-- The place that an address names, as it is written. -/
structure Place where
  /-- The user; empty if none is named. -/
  user : List Char
  /-- The password; empty if none is given. -/
  password : List Char
  /-- The host; empty if none is named. -/
  host : List Char
  /-- The port. -/
  port : Option String
deriving DecidableEq, Repr

/-- Splits the user and the password off, if there are any: what stands before an at sign. -/
def splitUser (cs : List Char) : (List Char × List Char) × List Char :=
  let user := cs.takeWhile fun c => c ≠ ':' && c ≠ '/'
  let rest := cs.drop user.length
  let alone : (List Char × List Char) × List Char :=
    if user.contains '@' then
      let host := afterLast '@' user
      ((user.take (user.length - host.length - 1), []), host ++ rest)
    else (([], []), cs)
  match rest with
  | ':' :: r =>
    if r.contains '@' then
      ((user, r.takeWhile (· ≠ '@')), (r.dropWhile (· ≠ '@')).drop 1)
    else alone
  | _ => alone

/-- Whether the character ends a host in brackets, or the port. -/
def endsPlace (c : Char) : Bool := c = '/' || c = '?'

/-- Splits the host off: one in brackets, or one up to a colon. -/
def splitHost (cs : List Char) : List Char × List Char :=
  let plain := cs.span fun c => c ≠ ':' && !endsPlace c
  match cs with
  | '[' :: r =>
    let place := r.takeWhile fun c => !endsPlace c
    if (place.drop 1).contains ']' then
      let rest := afterLast ']' place
      (place.take (place.length - rest.length - 1), rest ++ r.drop place.length)
    else plain
  | _ => plain

/-- The place in what follows the name. -/
def Place.of (cs : List Char) : Place :=
  let ((user, password), cs) := splitUser cs
  let (host, cs) := splitHost cs
  let port := match cs with
    | ':' :: r => some (String.ofList (r.takeWhile fun c => !endsPlace c))
    | _ => none
  ⟨user, password, host, port⟩

/-- The number of the port; a port that is not named is none. -/
def Place.portNumber (p : Place) : Except AddressFault (Option Int) :=
  match p.port with
  | none => .ok none
  | some "" => .error .emptyPort
  | some written =>
    match Number.Notation.integerDigits? 10 written with
    | some (negative, digits) =>
      .ok (some (Number.signed negative (Number.Notation.valueOf 10 digits)))
    | none => .error (.unreadablePort written)

/-- Whether an address tells anything about a place on a network; the port 0 tells nothing. -/
def Place.isRemote (p : Place) (port : Option Int) : Bool :=
  !(p.user.isEmpty && p.password.isEmpty && p.host.isEmpty && (port.getD 0 == 0))

end Address

/-! ## Pools -/

/-- How connections to a database are kept. -/
structure ConnectionPool where
  /-- The kind of database. -/
  dialect : String
  /-- The driver that talks to it. -/
  driver : String
  /-- The kind of pool. -/
  kind : String
  /-- How many connections are kept, where that is limited. -/
  size : Option Int
deriving DecidableEq, Repr

/-- The pool for an address: one shared connection for a database in memory or in a file, which is
at no place on a network; a queue of connections otherwise.  Without an address it is that of the
settings. -/
def ConnectionPool.ofAddress (s : Settings) (address : String) :
    Except AddressFault ConnectionPool := do
  let address := if address = "" then s.databaseUrl else address
  match Address.name? address.toList with
  | none => .error .malformed
  | some (name, rest) =>
    let place := Address.Place.of rest
    let port ← place.portNumber
    let driver ← DatabaseDriver.ofName name
    let isLocal := driver.dialect = "sqlite"
    if isLocal && place.isRemote port then .error .malformed
    else if driver.use = .blocking then .error .blockingDriver
    else if isLocal then .ok ⟨driver.dialect, driver.name, "StaticPool", none⟩
    else .ok ⟨driver.dialect, driver.name, "AsyncAdaptedQueuePool", some s.poolSize⟩

end EventRelay
