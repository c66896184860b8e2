import EventRelay.Proofs.Breaker.History
import EventRelay.Proofs.Existence.Run
import EventRelay.Proofs.Plan.Runs
import Mathlib.Data.ENat.Lattice

/-!
# One call of the existence cache

A call that no other call and no eviction overlaps is settled by what it finds and by the script of
the users service.  It asks nobody where it has a fresh entry or is refused.  Otherwise it asks
until an outcome comes that is no ordinary failure, and at most as often as it may; the breaker
hears of the whole call once.

The loop is followed attempt by attempt: before each of them the cache is as it was when the breaker
let the call through, and all outcomes so far were ordinary failures.

* `runs_askDirectory`, `runs_askRepeatedly`: an attempt, and the attempts from one on.
* `Decided`, `Interrupted`: what becomes of the whole call.
* `check_decided`: every run of a call.
* `Scene.runs_of_awaitEnd_check`: a rehearsal of one call is such a run.
-/

namespace EventRelay.Simulation

/-! ## The script of the users service -/

namespace Directory

/-- What the call of this number comes to as the script has it, counted from one. -/
def outcome (d : Directory) (user : Int) (number : Nat) : Except Failure Bool :=
  d.verdict user (d.script[number - 1]?.getD d.otherwise).turn

/-- The users service after so many calls about a user. -/
def after (d : Directory) (user : Int) (calls : Nat) : Directory :=
  { d with script := d.script.drop calls, asked := d.asked ++ List.replicate calls user }

/-- After no call the users service is as it was. -/
theorem after_zero (d : Directory) (user : Int) : d.after user 0 = d := by
  simp [after]

/-- The next call takes the next outcome of the script, and the last one for ever. -/
theorem ask_after (d : Directory) (user : Int) (calls : Nat) :
    (d.after user calls).ask user =
      (d.script[calls]?.getD d.otherwise, d.after user (calls + 1)) := by
  have hasked : d.asked ++ List.replicate calls user ++ [user] =
      d.asked ++ List.replicate (calls + 1) user := by
    rw [List.append_assoc, List.replicate_succ']
  unfold ask after
  by_cases hcalls : calls < d.script.length
  · simp only [List.drop_eq_getElem_cons hcalls, List.getElem?_eq_getElem hcalls, hasked,
      Option.getD_some]
  · have hover := Nat.le_of_not_lt hcalls
    simp only [List.drop_eq_nil_of_le hover, List.getElem?_eq_none hover, hasked,
      List.drop_eq_nil_of_le (Nat.le_succ_of_le hover), Option.getD_none]

/-- The outcome of a call is that of its number. -/
theorem outcome_succ (d : Directory) (user : Int) (calls : Nat) :
    (d.after user (calls + 1)).verdict user (d.script[calls]?.getD d.otherwise).turn =
      d.outcome user (calls + 1) := rfl

end Directory

/-- An ordinary failure, after which a call may try again. -/
def IsOrdinary (outcome : Except Failure Bool) : Prop :=
  ∃ e, outcome = .error e ∧ e.isCancellation = false

/-- The position of the first outcome that is no ordinary failure, counted from one. -/
structure IsFirstDecisive (outcome : Nat → Except Failure Bool) (position : ℕ∞) : Prop where
  /-- All before it are ordinary failures. -/
  before : ∀ n : Nat, 1 ≤ n → n < position → IsOrdinary (outcome n)
  /-- It is none itself, if there is such an outcome at all. -/
  decisive : ∀ n : Nat, position = n → 1 ≤ n ∧ ¬ IsOrdinary (outcome n)

/-- There is a first decisive outcome, or there is none at all. -/
theorem exists_isFirstDecisive (outcome : Nat → Except Failure Bool) :
    ∃ position, IsFirstDecisive outcome position := by
  classical
  by_cases h : ∃ n, 1 ≤ n ∧ ¬ IsOrdinary (outcome n)
  · refine ⟨(Nat.find h : Nat), fun n hn hlt => ?_, fun n heq => ?_⟩
    · by_contra hnot
      exact Nat.find_min h (ENat.natCast_lt_natCast.mp hlt) ⟨hn, hnot⟩
    · rw [← ENat.natCast_inj.mp heq]
      exact Nat.find_spec h
  · refine ⟨⊤, fun n hn _ => ?_, fun n heq => absurd heq (ENat.top_ne_natCast n)⟩
    by_contra hnot
    exact h ⟨n, hn, hnot⟩

section position

variable {outcome : Nat → Except Failure Bool} {position : ℕ∞} {n : Nat}

/-- Nothing is decided before it. -/
theorem IsFirstDecisive.le (h : IsFirstDecisive outcome position)
    (hbefore : ∀ j, 0 < j → j < n → IsOrdinary (outcome j)) : (n : ℕ∞) ≤ position := by
  by_contra hlt
  obtain ⟨k, rfl⟩ := ENat.ne_top_iff_exists.mp (ne_top_of_lt (not_le.mp hlt))
  obtain ⟨hk, hnot⟩ := h.decisive k rfl
  exact hnot (hbefore k hk (ENat.natCast_lt_natCast.mp (not_le.mp hlt)))

/-- A decisive outcome after ordinary ones only is the first. -/
theorem IsFirstDecisive.eq (h : IsFirstDecisive outcome position) (hn : 0 < n)
    (hbefore : ∀ j, 0 < j → j < n → IsOrdinary (outcome j)) (hnot : ¬ IsOrdinary (outcome n)) :
    position = n := by
  rcases lt_or_eq_of_le (h.le hbefore) with hlt | heq
  · exact absurd (h.before n hn hlt) hnot
  · exact heq.symm

/-- After ordinary outcomes only the first decisive one is still to come. -/
theorem IsFirstDecisive.lt (h : IsFirstDecisive outcome position)
    (hbefore : ∀ j, 0 < j → j < n → IsOrdinary (outcome j)) (hordinary : IsOrdinary (outcome n)) :
    n < position := by
  rcases lt_or_eq_of_le (h.le hbefore) with hlt | heq
  · exact hlt
  · exact absurd hordinary (h.decisive n heq.symm).2

end position

/-! ## Settling an attempt -/

/-- The cache when the breaker has heard of a failure. -/
def failed (c : Cache) (now : Instant) : Cache :=
  { c with breaker := (c.breaker.fail c.circuit now).1 }

/-- The cache when the breaker has heard of a success and the answer is written. -/
def learned (c : Cache) (user : Int) (found : Bool) (now : Instant) : Cache :=
  { c with breaker := c.breaker.succeed }.write user ⟨found, now⟩

section settling

variable {c : Cache} {now : Instant} {user : Int} {attempt : Nat} {e : Failure}

/-- An answer ends a call and is written. -/
theorem settle_ok (found : Bool) :
    c.settle now user attempt (.ok found) =
      ⟨.finished (Cache.answer user found), learned c user found now, []⟩ := rfl

/-- A cancellation ends a call as a failure. -/
theorem settle_cancelled (he : e.isCancellation = true) :
    c.settle now user attempt (.error e) =
      ⟨.finished (.error e), failed c now, (c.breaker.fail c.circuit now).2⟩ := by
  simp [Cache.settle, he, failed]

/-- An ordinary failure makes a call try again, if it may. -/
theorem settle_again (he : e.isCancellation = false) (hagain : attempt < c.policy.limit) :
    c.settle now user attempt (.error e) = ⟨.again (c.policy.backoff.wait attempt), c, []⟩ := by
  simp [Cache.settle, he, hagain]

/-- An ordinary failure of the last attempt makes a call fall back. -/
theorem settle_exhausted (now : Instant) (user : Int) (he : e.isCancellation = false)
    (hlast : ¬ attempt < c.policy.limit) :
    ∃ notices, c.settle now user attempt (.error e) =
      ⟨.finished (c.fallback now user "remote check failed").1, failed c now, notices⟩ := by
  refine ⟨(c.breaker.fail c.circuit now).2 ++ .checkFailed user e ::
    (c.fallback now user "remote check failed").2, ?_⟩
  simp only [Cache.settle, he, Bool.false_eq_true, if_false, hlast]
  rfl

end settling

/-! ## Attempts -/

namespace Plan

/-- A wait in which nobody else touches the cache or the users service: it ends well, or by
cancellation where that may be. -/
def Undisturbed (cancellable : Prop) : Meanwhile := fun _ w response w₁ =>
  w₁.cache = w.cache ∧ w₁.directory = w.directory ∧
    (response = .ok () ∨ cancellable ∧ ∃ e, response = .error e ∧ e.isCancellation = true)

variable {cancellable : Prop} {w w' : World} {user : Int} {r : Except Failure Unit}

/-- A step of the cache, and the plan that goes on with its decision. -/
theorem runs_cacheStep_bind {α β : Type} {meanwhile : Meanwhile} {f : World → CacheStep α}
    {k : α → Plan β} {r : Except Failure β} :
    (cacheStep f >>= k).Runs meanwhile w r w' ↔
      (k (f w).decision).Runs meanwhile
        { w with cache := (f w).cache, notices := w.notices ++ (f w).notices } r w' :=
  runs_updateWith_bind

/-- A pause that nobody disturbs is a wait for its time. -/
theorem undisturbed_of_runs_pause {span : Span}
    (h : (pause span).Runs (Undisturbed cancellable) w r w') :
    Undisturbed cancellable (.instant (w.now.after span)) w r w' := by
  rw [runs_pause] at h
  split at h
  · obtain ⟨rfl, rfl⟩ := h
    exact ⟨rfl, rfl, .inl rfl⟩
  · exact h

/-- One attempt: it takes its outcome off the script, or is cancelled. -/
theorem runs_askDirectory {d : Directory} {calls : Nat} {r : Except Failure Bool}
    (hdirectory : w.directory = d.after user calls)
    (h : (askDirectory user).Runs (Undisturbed cancellable) w r w') :
    w'.directory = d.after user (calls + 1) ∧ w'.cache = w.cache ∧
      (r = d.outcome user (calls + 1) ∨
        cancellable ∧ ∃ e, r = .error e ∧ e.isCancellation = true) := by
  unfold askDirectory at h
  rw [runs_updateWith_bind, hdirectory, Directory.ask_after] at h
  obtain ⟨r₁, w₁, hpause, hrest⟩ := runs_whenDone.mp h
  obtain ⟨hcache, hdirectory₁, hresponse⟩ := undisturbed_of_runs_pause hpause
  rcases hresponse with rfl | ⟨hcancellable, e, rfl, he⟩
  · obtain ⟨rfl, rfl⟩ := runs_world_bind.mp hrest
    exact ⟨hdirectory₁, hcache, .inl (by rw [hdirectory₁]; exact d.outcome_succ user calls)⟩
  · obtain ⟨rfl, rfl⟩ := hrest
    exact ⟨hdirectory₁, hcache, .inr ⟨hcancellable, e, rfl, he⟩⟩

/-- How a call ends that the breaker let through, with so many attempts. -/
inductive Ending (cancellable : Prop) (c : Cache) (d : Directory) (user : Int) (calls : Nat) :
    Except Failure Unit → World → Prop where
  /-- The last attempt was answered. -/
  | answered {w' : World} {found : Bool} (houtcome : d.outcome user calls = .ok found)
      (hcache : w'.cache = learned c user found w'.now) :
      Ending cancellable c d user calls (Cache.answer user found) w'
  /-- The last attempt was cancelled, as the script has it. -/
  | cancelled {w' : World} {e : Failure} (houtcome : d.outcome user calls = .error e)
      (he : e.isCancellation = true) (hcache : w'.cache = failed c w'.now) :
      Ending cancellable c d user calls (.error e) w'
  /-- The last attempt failed, and there may be no more. -/
  | exhausted {w' : World} {r : Except Failure Unit}
      (houtcome : IsOrdinary (d.outcome user calls)) (hlast : c.policy.limit ≤ calls)
      (hcache : w'.cache = failed c w'.now)
      (hresult : r = (c.fallback w'.now user "remote check failed").1) :
      Ending cancellable c d user calls r w'
  /-- The call was cancelled in a wait. -/
  | interrupted {w' : World} {e : Failure} (hcancellable : cancellable)
      (he : e.isCancellation = true) (hcache : w'.cache = failed c w'.now) :
      Ending cancellable c d user calls (.error e) w'

/-- The attempts of a call from one on: they go on as long as their outcomes are ordinary failures
and there may be more of them. -/
theorem runs_askRepeatedly {c : Cache} {d : Directory} {fuel calls : Nat}
    (h : (askRepeatedly user fuel (calls + 1)).Runs (Undisturbed cancellable) w r w')
    (hcache : w.cache = c) (hdirectory : w.directory = d.after user calls)
    (hfuel : fuel + calls = c.policy.limit) (hroom : calls < c.policy.limit) :
    ∃ n, calls < n ∧ n ≤ c.policy.limit ∧ w'.directory = d.after user n ∧
      (∀ j, calls < j → j < n → IsOrdinary (d.outcome user j)) ∧
      Ending cancellable c d user n r w' := by
  induction fuel generalizing calls w with
  | zero => omega
  | succ fuel ih =>
    have hnone : ∀ j, calls < j → j < calls + 1 → IsOrdinary (d.outcome user j) := by
      omega
    unfold askRepeatedly at h
    obtain ⟨outcome, w₁, hask, hsettle⟩ := runs_attempt_bind.mp h
    obtain ⟨hdirectory₁, hcache₁, houtcome⟩ := runs_askDirectory hdirectory hask
    rw [runs_cacheStep_bind, hcache₁, hcache] at hsettle
    rcases houtcome with houtcome | ⟨hcancellable, e, rfl, he⟩
    · cases outcome with
      | ok found =>
        rw [settle_ok] at hsettle
        obtain ⟨rfl, rfl⟩ := hsettle
        exact ⟨calls + 1, Nat.lt_succ_self calls, hroom, hdirectory₁, hnone,
          .answered houtcome.symm rfl⟩
      | error e =>
        cases he : e.isCancellation with
        | true =>
          rw [settle_cancelled he] at hsettle
          obtain ⟨rfl, rfl⟩ := hsettle
          exact ⟨calls + 1, Nat.lt_succ_self calls, hroom, hdirectory₁, hnone,
            .cancelled houtcome.symm he rfl⟩
        | false =>
          have hordinary : IsOrdinary (d.outcome user (calls + 1)) := ⟨e, houtcome.symm, he⟩
          by_cases hagain : calls + 1 < c.policy.limit
          · rw [settle_again he hagain] at hsettle
            obtain ⟨response, w₂, hpause, hnext⟩ := runs_attempt_bind.mp hsettle
            obtain ⟨hcache₂, hdirectory₂, hresponse⟩ := undisturbed_of_runs_pause hpause
            rcases hresponse with rfl | ⟨hcancellable, e', rfl, he'⟩
            · obtain ⟨n, hlt, hle, hd, hbefore, hending⟩ :=
                ih hnext hcache₂ (hdirectory₂.trans hdirectory₁) (by omega) hagain
              refine ⟨n, by omega, hle, hd, fun j hj hjn => ?_, hending⟩
              rcases Nat.lt_or_eq_of_le hj with hj | rfl
              · exact hbefore j hj hjn
              · exact hordinary
            · rw [runs_cacheStep_bind, hcache₂, Cache.abandon, settle_cancelled he'] at hnext
              obtain ⟨rfl, rfl⟩ := hnext
              exact ⟨calls + 1, Nat.lt_succ_self calls, hroom, hdirectory₂.trans hdirectory₁, hnone,
                .interrupted hcancellable he' rfl⟩
          · obtain ⟨notices, hexhausted⟩ := settle_exhausted w₁.now user he hagain
            rw [hexhausted] at hsettle
            obtain ⟨rfl, rfl⟩ := hsettle
            exact ⟨calls + 1, Nat.lt_succ_self calls, hroom, hdirectory₁, hnone,
              .exhausted hordinary (Nat.le_of_not_lt hagain) rfl rfl⟩
    · rw [settle_cancelled he] at hsettle
      obtain ⟨rfl, rfl⟩ := hsettle
      exact ⟨calls + 1, Nat.lt_succ_self calls, hroom, hdirectory₁, hnone,
        .interrupted hcancellable he rfl⟩

/-! ## The whole call -/

/-- The cache when the breaker has been asked for permission. -/
def admitted (c : Cache) (now : Instant) : Cache :=
  { c with breaker := (c.breaker.allow c.circuit now).2 }

/-- A call that asks nobody: it finds a fresh entry, or the breaker refuses it. -/
def IsSpared (w : World) (user : Int) : Prop :=
  (w.cache.youngEntry? w.now w.cache.policy.ttl user).isSome ∨
    (w.cache.breaker.allow w.cache.circuit w.now).1 = false

/-- It leaves the users service and the entries alone, and the breaker hears of no outcome. -/
structure Spared (w : World) (user : Int) (w' : World) : Prop where
  /-- Nobody is asked. -/
  directory : w'.directory = w.directory
  /-- The entries stay. -/
  entries : w'.cache.entries = w.cache.entries
  /-- A refusal is counted, and else the breaker stays. -/
  breaker : w'.cache.breaker =
    if (w.cache.youngEntry? w.now w.cache.policy.ttl user).isSome then w.cache.breaker
    else w.cache.breaker.refuse.2

/-- The breaker heard of one failure, and the entries stay. -/
structure Failed (w w' : World) : Prop where
  /-- One failure, at the end. -/
  breaker : w'.cache.breaker = ((admitted w.cache w.now).breaker.fail w.cache.circuit w'.now).1
  /-- The entries stay. -/
  entries : w'.cache.entries = w.cache.entries

/-- A call that asked until its outcome was decided at this position, or as often as it may. -/
structure Decided (w : World) (user : Int) (position : ℕ∞) (r : Except Failure Unit)
    (w' : World) : Prop where
  /-- As many calls as it takes, and no more than there may be. -/
  calls : ∃ n : Nat, (n : ℕ∞) = min position w.cache.policy.limit ∧
    w'.directory = w.directory.after user n
  /-- After an answer the breaker heard of one success, and the answer is written. -/
  answered : ∀ n : Nat, position = n → n ≤ w.cache.policy.limit →
    ∀ found, w.directory.outcome user n = .ok found →
      w'.cache.breaker = (admitted w.cache w.now).breaker.succeed ∧
      (∀ other, w'.cache.entry? other =
        if other = user then some ⟨found, w'.now⟩ else w.cache.entry? other) ∧
      r = Cache.answer user found
  /-- A cancellation is a failure and goes on to the caller. -/
  cancelled : ∀ n : Nat, position = n → n ≤ w.cache.policy.limit →
    ∀ e, w.directory.outcome user n = .error e → Failed w w' ∧ r = .error e
  /-- So is it when there may be no more attempts; the caller gets what the cache falls back on. -/
  exhausted : w.cache.policy.limit < position →
    Failed w w' ∧ r = (w.cache.fallback w'.now user "remote check failed").1

/-- A call that was cancelled in a wait, before its outcome was decided or as it was. -/
structure Interrupted (w : World) (user : Int) (position : ℕ∞) (r : Except Failure Unit)
    (w' : World) : Prop where
  /-- No more calls than an undisturbed one makes. -/
  calls : ∃ n : Nat, 0 < n ∧ (n : ℕ∞) ≤ min position w.cache.policy.limit ∧
    w'.directory = w.directory.after user n
  /-- A cancellation is a failure. -/
  failed : Failed w w'
  /-- It goes on to the caller. -/
  result : ∃ e, r = .error e ∧ e.isCancellation = true

section ending

variable {c : Cache} {n : Nat} {position : ℕ∞}

/-- A call after which the cache has heard of a failure has failed. -/
theorem failed_of_cache (hcache : w'.cache = failed (admitted w.cache w.now) w'.now) :
    Failed w w' where
  breaker := congrArg Cache.breaker hcache
  entries := by
    rw [hcache]
    rfl

/-- A call whose last attempt was the decisive one. -/
theorem decided_of_decisive (hle : n ≤ w.cache.policy.limit)
    (hdirectory : w'.directory = w.directory.after user n)
    (hanswered : ∀ found, w.directory.outcome user n = .ok found →
      w'.cache.breaker = (admitted w.cache w.now).breaker.succeed ∧
      (∀ other, w'.cache.entry? other =
        if other = user then some ⟨found, w'.now⟩ else w.cache.entry? other) ∧
      r = Cache.answer user found)
    (hcancelled : ∀ e, w.directory.outcome user n = .error e → Failed w w' ∧ r = .error e) :
    Decided w user n r w' := by
  have hreached : (n : ℕ∞) ≤ w.cache.policy.limit := ENat.natCast_le_natCast.mpr hle
  constructor
  case calls => exact ⟨n, (min_eq_left hreached).symm, hdirectory⟩
  case answered =>
    intro m hm _
    rw [← ENat.natCast_inj.mp hm]
    exact hanswered
  case cancelled =>
    intro m hm _
    rw [← ENat.natCast_inj.mp hm]
    exact hcancelled
  case exhausted => exact fun hlt => absurd hlt (not_lt.mpr hreached)

/-- The end of its last attempt decides a call. -/
theorem Ending.decides (hposition : IsFirstDecisive (w.directory.outcome user) position)
    (hn : 0 < n) (hle : n ≤ w.cache.policy.limit)
    (hbefore : ∀ j, 0 < j → j < n → IsOrdinary (w.directory.outcome user j))
    (hdirectory : w'.directory = w.directory.after user n)
    (h : Ending cancellable (admitted w.cache w.now) w.directory user n r w') :
    Decided w user position r w' ∨ cancellable ∧ Interrupted w user position r w' := by
  cases h with
  | @answered _ found houtcome hcache =>
    have hnot : ¬ IsOrdinary (w.directory.outcome user n) := by
      rw [houtcome]
      rintro ⟨e, he, -⟩
      cases he
    obtain rfl := hposition.eq hn hbefore hnot
    refine .inl (decided_of_decisive hle hdirectory (fun found' hfound => ?_) fun e he => ?_)
    · rw [houtcome] at hfound
      cases hfound
      refine ⟨congrArg Cache.breaker hcache, fun other => ?_, rfl⟩
      rw [hcache]
      exact Existence.lookup_write _ user other _
    · rw [houtcome] at he
      cases he
  | @cancelled _ e houtcome he hcache =>
    have hnot : ¬ IsOrdinary (w.directory.outcome user n) := by
      rw [houtcome]
      rintro ⟨e', he', hordinary⟩
      cases he'
      rw [he] at hordinary
      cases hordinary
    obtain rfl := hposition.eq hn hbefore hnot
    refine .inl (decided_of_decisive hle hdirectory (fun found hfound => ?_) fun e' he' => ?_)
    · rw [houtcome] at hfound
      cases hfound
    · rw [houtcome] at he'
      cases he'
      exact ⟨failed_of_cache hcache, rfl⟩
  | exhausted hordinary hlast hcache hresult =>
    have hlt := hposition.lt hbefore hordinary
    have heq : n = w.cache.policy.limit := Nat.le_antisymm hle hlast
    have hbeyond : ∀ m : Nat, position = m → ¬ m ≤ w.cache.policy.limit := by
      rintro m rfl
      rw [← heq]
      exact Nat.not_le.mpr (ENat.natCast_lt_natCast.mp hlt)
    refine .inl ⟨⟨n, ?_, hdirectory⟩, ?_, ?_, fun _ => ⟨failed_of_cache hcache, hresult⟩⟩
    · rw [← heq, min_eq_right hlt.le]
    · exact fun m hm hmle => absurd hmle (hbeyond m hm)
    · exact fun m hm hmle => absurd hmle (hbeyond m hm)
  | interrupted hcancellable he hcache =>
    have hreached : (n : ℕ∞) ≤ w.cache.policy.limit := ENat.natCast_le_natCast.mpr hle
    exact .inr ⟨hcancellable, ⟨n, hn, le_min (hposition.le hbefore) hreached, hdirectory⟩,
      failed_of_cache hcache, _, rfl, he⟩

end ending

/-! ## Asking the cache -/

/-- A fresh entry answers at once. -/
theorem consult_of_fresh {c : Cache} {now : Instant} {user : Int}
    (h : (c.youngEntry? now c.policy.ttl user).isSome) :
    ∃ result, c.consult now user = ⟨.answered result, c, []⟩ := by
  obtain ⟨e, he⟩ := Option.isSome_iff_exists.mp h
  exact ⟨Cache.answer user e.found, by simp [Cache.consult, he]⟩

/-- A call that the breaker refuses is answered without asking. -/
theorem consult_of_refused {c : Cache} {now : Instant} {user : Int}
    (h : ¬ (c.youngEntry? now c.policy.ttl user).isSome)
    (hrefused : (c.breaker.allow c.circuit now).1 = false) :
    ∃ result notices, c.consult now user =
      ⟨.answered result, { c with breaker := c.breaker.refuse.2 }, notices⟩ := by
  have hnone := Option.not_isSome_iff_eq_none.mp h
  have hrefuse := Breaker.allow_of_refused hrefused
  exact ⟨_, _, by simp only [Cache.consult, hnone, hrefuse, Breaker.refuse]; rfl⟩

/-- A call that the breaker lets through asks. -/
theorem consult_of_admitted {c : Cache} {now : Instant} {user : Int}
    (h : ¬ (c.youngEntry? now c.policy.ttl user).isSome)
    (hallowed : (c.breaker.allow c.circuit now).1 = true) :
    c.consult now user = ⟨.admitted, admitted c now, []⟩ := by
  have hnone := Option.not_isSome_iff_eq_none.mp h
  simp [Cache.consult, hnone, hallowed, admitted]

/-- A request to the users service starts nothing else. -/
theorem isSolitary_askDirectory (user : Int) : (askDirectory user).IsSolitary :=
  isSolitary_bind (isSolitary_updateWith _) fun o =>
    isSolitary_bind (isSolitary_pause o.delay) fun _ => fun _ => trivial

/-- Several attempts start nothing else. -/
theorem isSolitary_askRepeatedly (user : Int) (fuel attempt : Nat) :
    (askRepeatedly user fuel attempt).IsSolitary := by
  induction fuel generalizing attempt with
  | zero => trivial
  | succ fuel ih =>
    refine isSolitary_bind (isSolitary_attempt (isSolitary_askDirectory user)) fun outcome =>
      isSolitary_bind (isSolitary_updateWith _) fun settled => ?_
    cases settled with
    | finished result => trivial
    | again span =>
      refine isSolitary_bind (isSolitary_attempt (isSolitary_pause span)) fun response => ?_
      cases response with
      | ok => exact ih (attempt + 1)
      | error e =>
        refine isSolitary_bind (isSolitary_updateWith _) fun settled => ?_
        cases settled with
        | finished result => trivial
        | again span => trivial

/-- A check starts nothing else. -/
theorem isSolitary_check (user : Int) : (check user).IsSolitary := by
  refine isSolitary_bind (isSolitary_updateWith _) fun consulted => ?_
  cases consulted with
  | answered result => trivial
  | admitted => exact fun w => isSolitary_askRepeatedly user w.cache.policy.limit 1

/-- There is an attempt that a call may make. -/
theorem limit_pos (policy : CachePolicy) : 0 < policy.limit := by
  unfold CachePolicy.limit
  omega

/-- A call that asks nobody. -/
theorem spared_of_runs (hspared : IsSpared w user)
    (h : (check user).Runs (Undisturbed cancellable) w r w') : Spared w user w' := by
  unfold check at h
  rw [runs_cacheStep_bind] at h
  by_cases hfresh : (w.cache.youngEntry? w.now w.cache.policy.ttl user).isSome
  · obtain ⟨result, hconsult⟩ := consult_of_fresh hfresh
    rw [hconsult] at h
    obtain ⟨-, rfl⟩ := h
    exact ⟨rfl, rfl, (if_pos hfresh).symm⟩
  · obtain ⟨result, notices, hconsult⟩ := consult_of_refused hfresh (hspared.resolve_left hfresh)
    rw [hconsult] at h
    obtain ⟨-, rfl⟩ := h
    exact ⟨rfl, rfl, (if_neg hfresh).symm⟩

/-- A call that the breaker lets through. -/
theorem decided_of_runs (hspared : ¬ IsSpared w user)
    (h : (check user).Runs (Undisturbed cancellable) w r w') :
    ∃ position, IsFirstDecisive (w.directory.outcome user) position ∧
      (Decided w user position r w' ∨ cancellable ∧ Interrupted w user position r w') := by
  obtain ⟨hold, hallowed⟩ := not_or.mp hspared
  unfold check at h
  rw [runs_cacheStep_bind, consult_of_admitted hold (Bool.not_eq_false _ ▸ hallowed)] at h
  have hattempts := runs_world_bind.mp h
  obtain ⟨n, hn, hle, hdirectory, hbefore, hending⟩ :=
    runs_askRepeatedly hattempts rfl (w.directory.after_zero user).symm (Nat.add_zero _)
      (limit_pos _)
  obtain ⟨position, hposition⟩ := exists_isFirstDecisive (w.directory.outcome user)
  exact ⟨position, hposition, hending.decides hposition hn hle hbefore hdirectory⟩

/-- What a call does that no other one and no eviction overlaps: it comes to an end, and every run
of it is spared, decided, or interrupted by a cancellation. -/
theorem check_decided (w : World) (user : Int) :
    (∃ r w', (check user).Runs (Undisturbed False) w r w') ∧
    ∀ cancellable r w', (check user).Runs (Undisturbed cancellable) w r w' →
      (IsSpared w user → Spared w user w') ∧
      (¬ IsSpared w user → ∃ position,
        IsFirstDecisive (w.directory.outcome user) position ∧
        (Decided w user position r w' ∨ cancellable ∧ Interrupted w user position r w')) := by
  refine ⟨exists_runs (isSolitary_check user) (fun _ w => ?_) w, fun cancellable r w' h => ?_⟩
  · exact ⟨.ok (), w, rfl, rfl, .inl rfl⟩
  · exact ⟨fun hspared => spared_of_runs hspared h, fun hspared => decided_of_runs hspared h⟩

end Plan

/-! ## The call in a rehearsal -/

namespace Scene

open Plan

/-- A rehearsal in which nothing else goes on runs the call, and time passes in its waits. -/
theorem runs_of_awaitEnd_check {ofJob : Job → Plan Unit} {w : World} {user : Int}
    {r : Except Failure Unit}
    (h : (awaitEnd ofJob 0 (({ world := w } : Scene Unit).launch (check user)).2).result? 0 =
      some r) :
    (check user).Runs (Undisturbed False) w r
      (awaitEnd ofJob 0 (({ world := w } : Scene Unit).launch (check user)).2).world := by
  refine (runs_of_awaitEnd (isSolitary_check user) h).mono fun what w₁ response w₂ hpassing => ?_
  obtain ⟨rfl, now, rfl⟩ := hpassing
  exact ⟨rfl, rfl, .inl rfl⟩

end Scene

end EventRelay.Simulation
