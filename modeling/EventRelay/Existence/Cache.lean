import EventRelay.Backoff
import EventRelay.Breaker
import EventRelay.Time.Instant

/-!
# The existence cache

A cached, circuit-broken view of whether a user exists.  An entry answers while it is fresh;
otherwise the remote side is asked, a few times if need be, with one breaker outcome for the
whole call.  When the remote side cannot be asked, an entry up to twice the allowed age is still
trusted, and without one the answer is "exists" if the cache is to fail open.

A call runs in steps: `consult` answers or sends it to the remote side, `settle` takes a remote
outcome and ends the call or sends it to another attempt, `abandon` ends a cancelled one.  Every
other step of another call or an eviction may come between two of them.
-/

namespace EventRelay

/-- What was learned about a user. -/
structure CacheEntry where
  /-- Whether the user exists. -/
  found : Bool
  /-- When it was learned. -/
  writtenAt : Instant
deriving DecidableEq, Repr

/-- The settings of an existence cache. -/
structure CachePolicy where
  /-- How long an entry answers by itself. -/
  ttl : Span
  /-- How often the remote side is asked in one call. -/
  attempts : Int
  /-- The wait between two attempts. -/
  backoff : Backoff
  /-- Whether a user counts as existing when nothing is known. -/
  failOpen : Bool

/-- How often a call asks: at least once. -/
def CachePolicy.limit (p : CachePolicy) : Nat := (max 1 p.attempts).toNat

/-- An existence cache. -/
structure Cache where
  /-- The settings. -/
  policy : CachePolicy
  /-- The settings of the breaker. -/
  circuit : BreakerConfig Span
  /-- The breaker. -/
  breaker : Breaker Instant
  /-- The entries, by user. -/
  entries : List (Int × CacheEntry)

/-- The result of a step of a call. -/
structure CacheStep (α : Type) where
  /-- What the step decides. -/
  decision : α
  /-- The cache after it. -/
  cache : Cache
  /-- What is told to the operators. -/
  notices : List Notice

/-- What becomes of a call when it starts. -/
inductive Consulted where
  /-- The call ends with this answer; success means that the user exists. -/
  | answered (result : Except Failure Unit)
  /-- The remote side is to be asked. -/
  | admitted

/-- What becomes of a call after a remote outcome. -/
inductive Settled where
  /-- The call ends with this answer. -/
  | finished (result : Except Failure Unit)
  /-- The remote side is to be asked again after a wait. -/
  | again (wait : Span)

namespace Cache

/-- A cache without entries. -/
def fresh (policy : CachePolicy) (circuit : BreakerConfig Span) : Cache :=
  ⟨policy, circuit, .fresh 0, []⟩

/-- The entry of a user. -/
def entry? (c : Cache) (user : Int) : Option CacheEntry := c.entries.lookup user

/-- Writes the entry of a user. -/
def write (c : Cache) (user : Int) (e : CacheEntry) : Cache :=
  { c with entries := (user, e) :: c.entries.filter (·.1 ≠ user) }

/-- Drops the entry of a user. -/
def evict (c : Cache) (user : Int) : Cache :=
  { c with entries := c.entries.filter (·.1 ≠ user) }

/-- Drops all entries. -/
def evictAll (c : Cache) : Cache := { c with entries := [] }

/-- The entry of a user, if it is no older than the given age. -/
def youngEntry? (c : Cache) (now : Instant) (age : Span) (user : Int) : Option CacheEntry :=
  (c.entry? user).filter fun e => now - e.writtenAt ≤ age

/-- The answer that a verdict gives. -/
def answer (user : Int) (found : Bool) : Except Failure Unit :=
  if found then .ok () else .error (.ownerMissing user)

/-- The answer without the remote side. -/
def fallback (c : Cache) (now : Instant) (user : Int) (reason : String) :
    Except Failure Unit × List Notice :=
  match c.youngEntry? now (2 * c.policy.ttl) user with
  | some e => (answer user e.found, [.staleTrusted user reason])
  | none =>
    if c.policy.failOpen then (.ok (), [.existenceAssumed user reason])
    else (.error (.unverifiable user reason), [])

/-- Starts a call. -/
def consult (c : Cache) (now : Instant) (user : Int) : CacheStep Consulted :=
  match c.youngEntry? now c.policy.ttl user with
  | some e => ⟨.answered (answer user e.found), c, []⟩
  | none =>
    let (allowed, breaker) := c.breaker.allow c.circuit now
    let c := { c with breaker }
    if allowed then ⟨.admitted, c, []⟩
    else
      let (result, notices) := c.fallback now user "circuit open"
      ⟨.answered result, c, notices⟩

/-- Takes the outcome of a remote attempt, counted from one. -/
def settle (c : Cache) (now : Instant) (user : Int) (attempt : Nat) (outcome : Except Failure Bool) :
    CacheStep Settled :=
  match outcome with
  | .ok found =>
    let c := { c with breaker := c.breaker.succeed }.write user ⟨found, now⟩
    ⟨.finished (answer user found), c, []⟩
  | .error e =>
    if e.isCancellation then
      let (breaker, notices) := c.breaker.fail c.circuit now
      ⟨.finished (.error e), { c with breaker }, notices⟩
    else if attempt < c.policy.limit then ⟨.again (c.policy.backoff.wait attempt), c, []⟩
    else
      let (breaker, tripped) := c.breaker.fail c.circuit now
      let c := { c with breaker }
      let (result, notices) := c.fallback now user "remote check failed"
      ⟨.finished result, c, tripped ++ .checkFailed user e :: notices⟩

/-- Ends a call that is cancelled while it waits. -/
def abandon (c : Cache) (now : Instant) (user : Int) (e : Failure) : CacheStep Settled :=
  c.settle now user 0 (.error e)

end Cache

/-- A call under way: the user it asks about, and its current attempt, counted from one. -/
structure Check where
  /-- The user. -/
  user : Int
  /-- The attempt. -/
  attempt : Nat
deriving DecidableEq, Repr

end EventRelay
