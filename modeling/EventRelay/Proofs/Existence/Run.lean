import EventRelay.Existence.Cache
import EventRelay.Proofs.Lists
import Mathlib.Data.List.Nodup

/-!
# Runs of existence checks

Any number of calls of one existence cache, which share its entries and its breaker.  `Inquiries`
is the cache together with the calls that the breaker let through; `Step` is one thing that
happens: a call starts, a remote attempt of a call comes to an outcome, a call goes on after a wait
or is cancelled in it, entries are dropped, time passes.  Steps come in any order, so a run is any
interleaving, and a remote attempt takes any time.

The fields under "bookkeeping" are read by no step.  They number the calls in the order in which
the breaker let them through, and note down what happened: when the remote side was asked, what it
answered, which answers came from an entry, and what was dropped.

* `effect_of_step`: a step has one of eight effects, and each says what becomes of the whole state.
* `answered_consult`, `finished_settle`: the answers that the history notes down as served are those
  that callers get.
* `numbered_of_reachable`: the calls under way have numbers of their own, in order.
-/

namespace EventRelay

namespace Existence

/-! ## The state of a run -/

/-- A call that the breaker let through, until its end. -/
structure Call where
  /-- Its number. -/
  number : Nat
  /-- The user it asks about, and its attempt. -/
  check : Check
  /-- Whether it waits between two attempts. -/
  resting : Bool
  /-- When it was let through. -/
  admittedAt : Instant
  /-- How it found the circuit. -/
  found : Circuit

/-- Something to be noted down. -/
inductive Incident where
  /-- A call began an attempt to ask the remote side. -/
  | asked (call attempt : Nat) (user : Int)
  /-- An attempt of a call was answered, which ended the call, and an entry was written. -/
  | learned (call attempt : Nat) (user : Int) (entry : CacheEntry)
  /-- A call ended without an answer of the remote side. -/
  | gaveUp (call : Nat)
  /-- A caller was answered from an entry. -/
  | served (user : Int) (entry : CacheEntry)
  /-- The entry of a user was dropped, or every entry. -/
  | evicted (who : Option Int)
deriving DecidableEq

/-- The call that an incident is about. -/
def Incident.call? : Incident → Option Nat
  | .asked call _ _ => some call
  | .learned call _ _ _ => some call
  | .gaveUp call => some call
  | .served _ _ => none
  | .evicted _ => none

/-- The call that succeeded. -/
def Incident.success? : Incident → Option Nat
  | .learned call _ _ _ => some call
  | _ => none

/-- The call that failed. -/
def Incident.failure? : Incident → Option Nat
  | .gaveUp call => some call
  | _ => none

/-- An incident ends a call. -/
def Incident.Ends (x : Incident) (call : Nat) : Prop :=
  x.success? = some call ∨ x.failure? = some call

section ends

variable {n call attempt : Nat} {user : Int} {entry : CacheEntry}

/-- An attempt ends no call. -/
@[simp] theorem ends_asked : ¬ (Incident.asked n attempt user).Ends call := by
  rintro (h | h) <;> cases h

/-- An answer from an entry ends no call. -/
@[simp] theorem ends_served : ¬ (Incident.served user entry).Ends call := by
  rintro (h | h) <;> cases h

/-- An eviction ends no call. -/
@[simp] theorem ends_evicted {who : Option Int} : ¬ (Incident.evicted who).Ends call := by
  rintro (h | h) <;> cases h

/-- What is learned ends the call that learned it. -/
@[simp] theorem ends_learned : (Incident.learned n attempt user entry).Ends call ↔ n = call :=
  ⟨fun h => Option.some.inj (h.resolve_right nofun), fun h => .inl (congrArg some h)⟩

/-- A call that gives up is ended by that. -/
@[simp] theorem ends_gaveUp : (Incident.gaveUp n).Ends call ↔ n = call :=
  ⟨fun h => Option.some.inj (h.resolve_left nofun), fun h => .inr (congrArg some h)⟩

/-- What ends a call is about it. -/
theorem Incident.Ends.call? {x : Incident} (h : x.Ends call) : x.call? = some call := by
  cases x with
  | asked n attempt user => exact absurd h ends_asked
  | learned n attempt user entry => exact congrArg some (ends_learned.mp h)
  | gaveUp n => exact congrArg some (ends_gaveUp.mp h)
  | served user entry => exact absurd h ends_served
  | evicted who => exact absurd h ends_evicted

end ends

/-- A cache and the calls that its breaker let through. -/
structure Inquiries where
  /-- The time. -/
  now : Instant
  /-- The cache. -/
  cache : Cache
  /-- The calls under way. -/
  calls : List Call
  /-- Bookkeeping: how many calls were let through. -/
  count : Nat
  /-- Bookkeeping: what happened. -/
  history : List Incident
  /-- Bookkeeping: how many calls had been let through when the circuit opened last. -/
  watershed : Nat

/-- The answer from an entry, if there is one, as it is noted down. -/
def servedBy (user : Int) (basis? : Option CacheEntry) : List Incident :=
  (basis?.map (Incident.served user)).toList

/-- The entry that answers a caller who is not let through. -/
def answering? (c : Cache) (now : Instant) (user : Int) : Option CacheEntry :=
  (c.youngEntry? now c.policy.ttl user).or (c.youngEntry? now (2 * c.policy.ttl) user)

namespace Inquiries

/-- The state of the circuit. -/
def circuit (s : Inquiries) : Circuit := s.cache.breaker.circuit

/-- Puts a later cache in the place of the present one, and notes down what happened. -/
def turn (s : Inquiries) (cache : Cache) (calls : List Call) (incidents : List Incident) :
    Inquiries :=
  { s with
    cache, calls
    history := s.history ++ incidents
    watershed := if cache.breaker.circuit = .open ∧ s.circuit ≠ .open then s.count
      else s.watershed }

/-- Starts a call. -/
def consult (s : Inquiries) (user : Int) : Inquiries :=
  let r := s.cache.consult s.now user
  match r.decision with
  | .answered _ => s.turn r.cache s.calls (servedBy user (answering? s.cache s.now user))
  | .admitted =>
    { s.turn r.cache (s.calls ++ [⟨s.count, ⟨user, 1⟩, false, s.now, s.circuit⟩])
        [.asked s.count 1 user] with
      count := s.count + 1 }

/-- What is noted down when a call ends. -/
def endings (s : Inquiries) (c : Call) : Except Failure Bool → List Incident
  | .ok found => [.learned c.number c.check.attempt c.check.user ⟨found, s.now⟩]
  | .error e =>
    .gaveUp c.number ::
      if e.isCancellation then []
      else servedBy c.check.user (s.cache.youngEntry? s.now (2 * s.cache.policy.ttl) c.check.user)

/-- Gives the outcome of its attempt to a call that stands between others. -/
def settle (s : Inquiries) (before after : List Call) (c : Call) (outcome : Except Failure Bool) :
    Inquiries :=
  let r := s.cache.settle s.now c.check.user c.check.attempt outcome
  match r.decision with
  | .finished _ => s.turn r.cache (before ++ after) (s.endings c outcome)
  | .again _ => s.turn r.cache (before ++ { c with resting := true } :: after) []

/-- Lets a call go on after a wait. -/
def resume (s : Inquiries) (before after : List Call) (c : Call) : Inquiries :=
  let check : Check := { c.check with attempt := c.check.attempt + 1 }
  s.turn s.cache (before ++ { c with check, resting := false } :: after)
    [.asked c.number check.attempt check.user]

/-- Cancels a call in a wait. -/
def cancel (s : Inquiries) (before after : List Call) (c : Call) (cause : Failure) : Inquiries :=
  s.turn (s.cache.abandon s.now c.check.user cause).cache (before ++ after)
    (s.endings c (.error cause))

/-- Drops the entry of a user, or every entry. -/
def evict (s : Inquiries) : Option Int → Inquiries
  | some user => s.turn (s.cache.evict user) s.calls [.evicted (some user)]
  | none => s.turn s.cache.evictAll s.calls [.evicted none]

/-- Lets time pass. -/
def waitUntil (s : Inquiries) (later : Instant) : Inquiries := { s with now := later }

end Inquiries

/-! ## Steps -/

/-- One thing that happens to the calls of a cache. -/
inductive Step : Inquiries → Inquiries → Prop where
  /-- A call starts: it is answered at once, or let through. -/
  | consult (s : Inquiries) (user : Int) : Step s (s.consult user)
  /-- An attempt of a call succeeds, fails or is cancelled. -/
  | settle (s : Inquiries) {before after : List Call} {c : Call}
      (hc : s.calls = before ++ c :: after) (hasking : c.resting = false)
      (outcome : Except Failure Bool) : Step s (s.settle before after c outcome)
  /-- A call goes on after a wait. -/
  | resume (s : Inquiries) {before after : List Call} {c : Call}
      (hc : s.calls = before ++ c :: after) (hresting : c.resting = true) :
      Step s (s.resume before after c)
  /-- A call is cancelled in a wait. -/
  | cancel (s : Inquiries) {before after : List Call} {c : Call}
      (hc : s.calls = before ++ c :: after) (hresting : c.resting = true) {cause : Failure}
      (hcause : cause.isCancellation = true) : Step s (s.cancel before after c cause)
  /-- Entries are dropped. -/
  | evict (s : Inquiries) (who : Option Int) : Step s (s.evict who)
  /-- Time passes. -/
  | pass (s : Inquiries) {later : Instant} (hle : s.now ≤ later) : Step s (s.waitUntil later)

/-- A beginning: no entry, no call. -/
def start (policy : CachePolicy) (circuit : BreakerConfig Span) (now : Instant) : Inquiries where
  now
  cache := .fresh policy circuit
  calls := []
  count := 0
  history := []
  watershed := 0

/-- What a run all of whose steps are allowed can come to. -/
inductive Reachable (policy : CachePolicy) (circuit : BreakerConfig Span)
    (allowed : Inquiries → Inquiries → Prop) : Inquiries → Prop where
  /-- The beginning. -/
  | start (now : Instant) : Reachable policy circuit allowed (start policy circuit now)
  /-- One step further. -/
  | step {s s' : Inquiries} (h : Reachable policy circuit allowed s) (hstep : Step s s')
      (hallowed : allowed s s') : Reachable policy circuit allowed s'

/-- Any step is allowed. -/
def Anything (_ _ : Inquiries) : Prop := True

/-! ## Entries -/

section entries

variable (c : Cache) (user other : Int)

/-- An entry that is filtered out is not found, and all others are. -/
theorem lookup_filter_ne (entries : List (Int × CacheEntry)) :
    (entries.filter fun p => p.1 ≠ user).lookup other =
      if other = user then none else entries.lookup other := by
  induction entries with
  | nil => simp
  | cons p entries ih =>
    rw [List.lookup_cons]
    by_cases hp : p.1 = user
    · rw [List.filter_cons_of_neg (by simpa using hp), ih, hp]
      by_cases ho : other = user
      · rw [if_pos ho, if_pos ho]
      · have hne : (other == user) = false := by simpa using ho
        simp only [hne]
    · rw [List.filter_cons_of_pos (by simpa using hp), List.lookup_cons, ih]
      by_cases ho : other = user
      · have hne : (other == p.1) = false := by
          rw [ho]
          simpa using fun h : user = p.1 => hp h.symm
        simp only [hne, if_pos ho]
      · rw [if_neg ho, if_neg ho]

/-- An entry that is written is found, and all others are as they were. -/
theorem lookup_write (e : CacheEntry) :
    Cache.entry? (c.write user e) other = if other = user then some e else c.entry? other := by
  unfold Cache.entry? Cache.write
  rw [List.lookup_cons, lookup_filter_ne]
  by_cases ho : other = user
  · simp [ho]
  · have hne : (other == user) = false := by simpa using ho
    rw [hne, if_neg ho, if_neg ho]

/-- An entry that is dropped is not found, and all others are as they were. -/
theorem lookup_evict :
    Cache.entry? (c.evict user) other = if other = user then none else c.entry? other :=
  lookup_filter_ne user other c.entries

/-- A young entry is an entry. -/
theorem mem_of_youngEntry? {c : Cache} {now : Instant} {age : Span} {user : Int}
    {e : CacheEntry} (h : c.youngEntry? now age user = some e) : c.entry? user = some e := by
  unfold Cache.youngEntry? at h
  exact (Option.filter_eq_some_iff.mp h).1

/-- An entry that answers is an entry. -/
theorem mem_of_answering? {c : Cache} {now : Instant} {user : Int} {e : CacheEntry}
    (h : answering? c now user = some e) : c.entry? user = some e := by
  unfold answering? at h
  rcases Option.or_eq_some_iff.mp h with h | ⟨-, h⟩
  · exact mem_of_youngEntry? h
  · exact mem_of_youngEntry? h

end entries

/-! ## Answers -/

/-- The answer from an entry, or without one. -/
def answerBy (c : Cache) (user : Int) (reason : String) : Option CacheEntry → Except Failure Unit
  | some e => Cache.answer user e.found
  | none => if c.policy.failOpen then .ok () else .error (.unverifiable user reason)

/-- A call falls back on an entry of twice the age, or has none. -/
theorem fallback_fst (c : Cache) (now : Instant) (user : Int) (reason : String) :
    (c.fallback now user reason).1 =
      answerBy c user reason (c.youngEntry? now (2 * c.policy.ttl) user) := by
  unfold Cache.fallback
  rcases c.youngEntry? now (2 * c.policy.ttl) user with _ | e
  · dsimp only [answerBy]
    split <;> rfl
  · rfl

/-- A caller who is not let through gets the answer of the entry that is noted down, and what a
cache without entries would answer if there is none. -/
theorem answered_consult {c : Cache} {now : Instant} {user : Int} {result : Except Failure Unit}
    (h : (c.consult now user).decision = .answered result) :
    result = answerBy c user "circuit open" (answering? c now user) := by
  unfold Cache.consult at h
  unfold answering?
  rcases hyoung : c.youngEntry? now c.policy.ttl user with _ | e
  · rcases hallow : c.breaker.allow c.circuit now with ⟨_ | _, breaker⟩
    · simp only [hyoung, hallow, Bool.false_eq_true, if_false] at h
      cases h
      exact fallback_fst { c with breaker } now user "circuit open"
    · simp only [hyoung, hallow, if_true] at h
      cases h
  · simp only [hyoung] at h
    cases h
    rfl

/-- So does a caller whose call failed. -/
theorem finished_settle {c : Cache} {now : Instant} {user : Int} {attempt : Nat} {e : Failure}
    {result : Except Failure Unit} (he : e.isCancellation = false)
    (h : (c.settle now user attempt (.error e)).decision = .finished result) :
    result = answerBy c user "remote check failed"
      (c.youngEntry? now (2 * c.policy.ttl) user) := by
  unfold Cache.settle at h
  simp only [he] at h
  by_cases hagain : attempt < c.policy.limit
  · simp only [hagain] at h
    cases h
  · simp only [hagain] at h
    cases h
    exact fallback_fst { c with breaker := (c.breaker.fail c.circuit now).1 } now user
      "remote check failed"

/-! ## The breaker -/

section breaker

variable (cfg : BreakerConfig Span) (now : Instant) (b : Breaker Instant)

/-- What a request for permission comes to. -/
inductive Permission (cfg : BreakerConfig Span) (now : Instant) (b : Breaker Instant) :
    Bool × Breaker Instant → Prop where
  /-- It is refused. -/
  | refused (rejected : Nat) : Permission cfg now b (false, { b with rejected })
  /-- The circuit is closed. -/
  | granted (hclosed : b.circuit = .closed) : Permission cfg now b (true, b)
  /-- The circuit was open for long enough, and the call is the trial. -/
  | trial (hopen : b.circuit = .open) (hwaited : cfg.recovery ≤ now - b.openedAt) :
      Permission cfg now b (true, { b with circuit := .halfOpen, trial := true })
  /-- The circuit is half-open without a trial under way. -/
  | next (hhalf : b.circuit = .halfOpen) (hnone : b.trial = false) :
      Permission cfg now b (true, { b with trial := true })

/-- What a breaker says to a request for permission. -/
theorem permission_allow : Permission cfg now b (b.allow cfg now) := by
  unfold Breaker.allow
  cases hcircuit : b.circuit with
  | closed => exact .granted hcircuit
  | «open» =>
    dsimp only
    by_cases hwaited : cfg.recovery ≤ now - b.openedAt
    · rw [if_pos hwaited]
      exact .trial hcircuit hwaited
    · rw [if_neg hwaited]
      exact .refused _
  | halfOpen =>
    dsimp only
    cases htrial : b.trial with
    | true => exact .refused _
    | false =>
      have hnext : Permission cfg now b (true, { b with trial := true }) := .next hcircuit htrial
      rw [hcircuit] at hnext
      exact hnext

/-- A failure opens a circuit that is half-open, may open a closed one, and leaves an open one as
it is. -/
theorem circuit_fail :
    (b.circuit = .open → (b.fail cfg now).1.circuit = .open) ∧
    (b.circuit = .halfOpen → (b.fail cfg now).1.circuit = .open) ∧
    (b.circuit = .closed → (b.fail cfg now).1.circuit ≠ .halfOpen) := by
  unfold Breaker.fail
  dsimp only
  refine ⟨fun h => ?_, fun h => ?_, fun h => ?_⟩
  · rw [h]
  · rw [h]
    rfl
  · rw [h]
    dsimp only
    split
    · exact nofun
    · exact nofun

/-- A failure leaves no circuit half-open. -/
theorem circuit_fail_ne_halfOpen : (b.fail cfg now).1.circuit ≠ .halfOpen := by
  obtain ⟨hopen, hhalf, hclosed⟩ := circuit_fail cfg now b
  cases hcircuit : b.circuit with
  | closed => exact hclosed hcircuit
  | «open» =>
    rw [hopen hcircuit]
    exact nofun
  | halfOpen =>
    rw [hhalf hcircuit]
    exact nofun

/-- A failure that opens the circuit keeps its time, and no other failure does: those of late calls
do not put the end of the recovery off. -/
theorem openedAt_fail : (b.fail cfg now).1.openedAt =
    if (b.fail cfg now).1.circuit = .open ∧ b.circuit ≠ .open then now else b.openedAt := by
  unfold Breaker.fail
  cases hcircuit : b.circuit with
  | closed =>
    dsimp only
    split <;> rfl
  | «open» => rfl
  | halfOpen => rfl

end breaker

/-! ## What a step does -/

section turns

variable (s : Inquiries) (cache : Cache) (calls : List Call) (incidents : List Incident)

/-- The cache after a turn is the later one. -/
@[simp] theorem turn_cache : (s.turn cache calls incidents).cache = cache := rfl

/-- A turn numbers no call. -/
@[simp] theorem turn_count : (s.turn cache calls incidents).count = s.count := rfl

/-- A turn adds what happened to the history. -/
@[simp] theorem turn_history :
    (s.turn cache calls incidents).history = s.history ++ incidents := rfl

/-- A turn that does not open the circuit leaves the time at which it did. -/
theorem turn_watershed (h : cache.breaker.circuit = .open → s.circuit = .open) :
    (s.turn cache calls incidents).watershed = s.watershed := by
  unfold Inquiries.turn
  rw [if_neg]
  rintro ⟨hopen, hne⟩
  exact hne (h hopen)

end turns

/-- An eviction takes entries away and leaves the rest of the cache and the calls as they are. -/
theorem evict_eq_turn (s : Inquiries) (who : Option Int) :
    ∃ entries, s.evict who = s.turn { s.cache with entries } s.calls [.evicted who] := by
  cases who with
  | none => exact ⟨_, rfl⟩
  | some user => exact ⟨_, rfl⟩

/-- What a step has done. -/
inductive Effect (s s' : Inquiries) : Prop where
  /-- A caller was answered at once, perhaps from an entry. -/
  | answered (user : Int) (basis? : Option CacheEntry)
      (hbasis : ∀ e, basis? = some e → s.cache.entry? user = some e) (rejected : Nat)
      (h : s' = s.turn { s.cache with breaker := { s.cache.breaker with rejected } } s.calls
        (servedBy user basis?))
  /-- A call was let through. -/
  | admitted (user : Int) (breaker : Breaker Instant)
      (hallow : Permission s.cache.circuit s.now s.cache.breaker (true, breaker))
      (h : s' = { s.turn { s.cache with breaker }
          (s.calls ++ [⟨s.count, ⟨user, 1⟩, false, s.now, s.circuit⟩]) [.asked s.count 1 user] with
        count := s.count + 1 })
  /-- An attempt of a call failed, and it waits for the next one. -/
  | rested (before after : List Call) (c : Call) (hc : s.calls = before ++ c :: after)
      (h : s' = s.turn s.cache (before ++ { c with resting := true } :: after) [])
  /-- A call succeeded. -/
  | succeeded (before after : List Call) (c : Call) (hc : s.calls = before ++ c :: after)
      (hasking : c.resting = false) (found : Bool)
      (h : s' = s.turn ({ s.cache with breaker := s.cache.breaker.succeed }.write c.check.user
          ⟨found, s.now⟩) (before ++ after)
        [.learned c.number c.check.attempt c.check.user ⟨found, s.now⟩])
  /-- A call failed or was cancelled, and perhaps its caller was answered from an entry. -/
  | failed (before after : List Call) (c : Call) (hc : s.calls = before ++ c :: after)
      (basis? : Option CacheEntry)
      (hbasis : ∀ e, basis? = some e → s.cache.entry? c.check.user = some e)
      (h : s' = s.turn { s.cache with
          breaker := (s.cache.breaker.fail s.cache.circuit s.now).1 } (before ++ after)
        (.gaveUp c.number :: servedBy c.check.user basis?))
  /-- A call began its next attempt. -/
  | resumed (before after : List Call) (c : Call) (hc : s.calls = before ++ c :: after)
      (h : s' = s.resume before after c)
  /-- Entries were dropped. -/
  | evicted (who : Option Int) (h : s' = s.evict who)
  /-- Time passed. -/
  | waited (later : Instant) (hle : s.now ≤ later) (h : s' = s.waitUntil later)

variable {s s' : Inquiries}

/-- A call that starts is answered, refused or let through. -/
theorem effect_consult (user : Int) : Effect s (s.consult user) := by
  have hentry : ∀ e, answering? s.cache s.now user = some e → s.cache.entry? user = some e :=
    fun e h => mem_of_answering? h
  unfold Inquiries.consult Cache.consult
  rcases hyoung : s.cache.youngEntry? s.now s.cache.policy.ttl user with _ | e
  · have hpermission := permission_allow s.cache.circuit s.now s.cache.breaker
    rcases hallow : s.cache.breaker.allow s.cache.circuit s.now with ⟨_ | _, breaker⟩
    · rw [hallow] at hpermission
      dsimp only
      cases hpermission with
      | refused rejected =>
        exact .answered user (answering? s.cache s.now user) hentry rejected rfl
    · rw [hallow] at hpermission
      exact .admitted user breaker hpermission rfl
  · exact .answered user (answering? s.cache s.now user) hentry s.cache.breaker.rejected rfl

/-- An outcome ends a call or makes it wait. -/
theorem effect_settle {before after : List Call} {c : Call} (hc : s.calls = before ++ c :: after)
    (hasking : c.resting = false) (outcome : Except Failure Bool) :
    Effect s (s.settle before after c outcome) := by
  unfold Inquiries.settle Cache.settle Inquiries.endings
  cases outcome with
  | ok found => exact .succeeded before after c hc hasking found rfl
  | error e =>
    dsimp only
    by_cases he : e.isCancellation = true
    · simp only [he, if_true]
      exact .failed before after c hc none nofun rfl
    · simp only [Bool.not_eq_true] at he
      by_cases hagain : c.check.attempt < s.cache.policy.limit
      · simp only [he, hagain, if_true]
        exact .rested before after c hc rfl
      · simp only [he, hagain, if_false]
        exact .failed before after c hc
          (s.cache.youngEntry? s.now (2 * s.cache.policy.ttl) c.check.user)
          (fun e h => mem_of_youngEntry? h) rfl

/-- Every step has one of these effects. -/
theorem effect_of_step (h : Step s s') : Effect s s' := by
  cases h with
  | consult user => exact effect_consult user
  | settle hc hasking outcome => exact effect_settle hc hasking outcome
  | resume hc hresting => exact .resumed _ _ _ hc rfl
  | @cancel before after c hc hresting cause hcause =>
    refine .failed before after c hc none nofun ?_
    unfold Inquiries.cancel Cache.abandon Cache.settle Inquiries.endings
    simp only [hcause, if_true]
    rfl
  | evict who => exact .evicted who rfl
  | pass hle => exact .waited _ hle rfl

/-! ## The numbers of calls -/

/-- The calls under way have numbers of their own, in order. -/
structure Numbered (s : Inquiries) : Prop where
  /-- Their numbers have been given out. -/
  given : ∀ c ∈ s.calls, c.number < s.count
  /-- They grow along the list. -/
  inOrder : (s.calls.map (·.number)).Pairwise (· < ·)

/-- Two calls under way with one number are one. -/
theorem Numbered.eq_of_number (h : Numbered s) {c d : Call} (hc : c ∈ s.calls) (hd : d ∈ s.calls)
    (hnumber : c.number = d.number) : c = d := by
  have hnodup : (s.calls.map (·.number)).Nodup := h.inOrder.imp fun hlt => Nat.ne_of_lt hlt
  exact List.inj_on_of_nodup_map hnodup hc hd hnumber

/-- No other call has the number of one of them. -/
theorem Numbered.ne_of_other (h : Numbered s) {before after : List Call} {c d : Call}
    (hc : s.calls = before ++ c :: after) (hd : d ∈ before ++ after) : d.number ≠ c.number := by
  have hnodup : (s.calls.map (·.number)).Nodup := h.inOrder.imp fun hlt => Nat.ne_of_lt hlt
  rw [hc, List.map_append, List.map_cons, List.nodup_middle, ← List.map_append] at hnodup
  intro hnumber
  refine (List.nodup_cons.mp hnodup).1 ?_
  rw [← hnumber]
  exact List.mem_map_of_mem hd

/-- Where no call is new, numbers stay as they are. -/
theorem Numbered.sublist (h : Numbered s) (hcount : s'.count = s.count)
    (hsub : (s'.calls.map (·.number)).Sublist (s.calls.map (·.number))) : Numbered s' where
  given c hc := by
    obtain ⟨d, hd, hnumber⟩ := List.mem_map.mp (hsub.subset (List.mem_map_of_mem hc))
    rw [hcount, ← hnumber]
    exact h.given d hd
  inOrder := h.inOrder.sublist hsub

/-- A call that ends leaves the numbers of the others. -/
theorem sublist_of_ended {before after : List Call} {c : Call}
    (hc : s.calls = before ++ c :: after) :
    ((before ++ after).map (·.number)).Sublist (s.calls.map (·.number)) := by
  rw [hc]
  exact List.Sublist.map _ ((List.Sublist.refl _).append (List.sublist_cons_self c after))

/-- A call that goes on leaves all numbers. -/
theorem sublist_of_replaced {before after : List Call} {c d : Call}
    (hc : s.calls = before ++ c :: after) (hnumber : d.number = c.number) :
    ((before ++ d :: after).map (·.number)).Sublist (s.calls.map (·.number)) := by
  rw [hc, List.map_append, List.map_append, List.map_cons, List.map_cons, hnumber]

/-- After every step the calls under way have numbers of their own. -/
theorem numbered_step (h : Numbered s) (hstep : Step s s') : Numbered s' := by
  cases effect_of_step hstep with
  | answered user basis? hbasis rejected hs' =>
    rw [hs']
    exact h.sublist rfl (List.Sublist.refl _)
  | admitted user breaker hallow hs' =>
    rw [hs']
    constructor
    · intro c hc
      rcases List.mem_append.mp hc with hc | hc
      · exact Nat.lt_succ_of_lt (h.given c hc)
      · rw [List.mem_singleton.mp hc]
        exact Nat.lt_succ_self _
    · show ((s.calls ++ _).map (·.number)).Pairwise (· < ·)
      rw [List.map_append, List.pairwise_append]
      refine ⟨h.inOrder, List.pairwise_singleton _ _, fun i hi j hj => ?_⟩
      obtain ⟨c, hc, rfl⟩ := List.mem_map.mp hi
      rw [List.mem_singleton.mp hj]
      exact h.given c hc
  | rested before after c hc hs' =>
    rw [hs']
    exact h.sublist rfl (sublist_of_replaced hc rfl)
  | succeeded before after c hc hasking found hs' =>
    rw [hs']
    exact h.sublist rfl (sublist_of_ended hc)
  | failed before after c hc basis? hbasis hs' =>
    rw [hs']
    exact h.sublist rfl (sublist_of_ended hc)
  | resumed before after c hc hs' =>
    rw [hs']
    exact h.sublist rfl (sublist_of_replaced hc rfl)
  | evicted who hs' =>
    obtain ⟨entries, hevict⟩ := evict_eq_turn s who
    rw [hs', hevict]
    exact h.sublist rfl (List.Sublist.refl _)
  | waited later hle hs' =>
    rw [hs']
    exact h.sublist rfl (List.Sublist.refl _)

variable {policy : CachePolicy} {circuit : BreakerConfig Span}
  {allowed : Inquiries → Inquiries → Prop}

/-- They have in every state of a run. -/
theorem numbered_of_reachable (h : Reachable policy circuit allowed s) : Numbered s := by
  induction h with
  | start now => exact ⟨fun c hc => absurd hc List.not_mem_nil, List.Pairwise.nil⟩
  | step _ hstep _ ih => exact numbered_step ih hstep

end Existence

end EventRelay
