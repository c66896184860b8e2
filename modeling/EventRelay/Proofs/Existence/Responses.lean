import EventRelay.Proofs.Existence.OneCheck
import EventRelay.Simulation.Rehearsal

/-!
# What responses may teach the cache

Two kinds of responses say whether a user exists: one with status 404, and a success whose body is a
document with an object in it.  Every other one, and every request that breaks off, is an ordinary
failure.  A call that nobody interferes with therefore learns from the first exchange that says
something, if it comes to that one; else it writes nothing, the breaker hears of one failure, and
the caller gets what the cache falls back on.

* `UsersResponse.Says`, `verdict_eq_ok_iff`: what a response says, told without the client.
* `isOrdinary_verdict`: everything else is an ordinary failure and no cancellation.
* `Learned`, `GaveUp`: the two ends of a call that asks over the web.
* `learns_from_exchanges`: every run has one of these ends, whatever the exchanges are.
-/

namespace EventRelay

/-! ## What a response says -/

namespace UsersResponse

/-- The bytes of a body are a document with an object that has these members. -/
def Holds (body : List UInt8) (members : List (String × Json)) : Prop :=
  ∃ text, Text.ofDocument body = .ok text ∧
    Json.read .lenient (String.ofList text) = .ok (.object members)

/-- What members say about a user: the truth of the last one named `exists`, and no without one. -/
def told (members : List (String × Json)) : Bool :=
  ((Json.lastMember? "exists" members).map Json.isTruthy).getD false

/-- What a response says about a user, if it says anything. -/
inductive Says (r : UsersResponse) : Bool → Prop
  /-- Nobody of that number is there. -/
  | absent (hstatus : r.status = 404) : Says r false
  /-- The body tells. -/
  | told (hlow : 200 ≤ r.status) (hhigh : r.status < 300) (members : List (String × Json))
      (hbody : Holds r.body members) : Says r (told members)

section verdict

variable {r : UsersResponse} {body : List UInt8} {found : Bool} {e : Failure}

/-- A document says something exactly if it is an object. -/
theorem documentVerdict_eq_ok_iff {text : String} :
    documentVerdict text = .ok found ↔
      ∃ members, Json.read .lenient text = .ok (.object members) ∧ found = told members := by
  unfold documentVerdict
  rcases hread : Json.read .lenient text with fault | v
  · cases fault <;> simp
  · cases v with
    | object members =>
      constructor
      · intro h
        exact ⟨members, rfl, (Except.ok.inj h).symm⟩
      · rintro ⟨members', hmembers, rfl⟩
        cases hmembers
        rfl
    | _ => simp

/-- A body says something exactly if its bytes are a document with an object. -/
theorem bodyVerdict_eq_ok_iff :
    bodyVerdict body = .ok found ↔ ∃ members, Holds body members ∧ found = told members := by
  unfold bodyVerdict Holds
  rcases hbody : Text.ofDocument body with fault | text
  · simp
  · simp [documentVerdict_eq_ok_iff]

/-- The client takes from a response what it says. -/
theorem verdict_eq_ok_iff : r.verdict = .ok found ↔ r.Says found := by
  unfold verdict
  constructor
  · intro h
    split at h
    · rename_i hstatus
      cases h
      exact .absent hstatus
    · split at h
      · rename_i hsuccess
        obtain ⟨members, hbody, rfl⟩ := bodyVerdict_eq_ok_iff.mp h
        exact .told hsuccess.1 hsuccess.2 members hbody
      · cases h
  · intro h
    cases h with
    | absent hstatus => rw [if_pos hstatus]
    | told hlow hhigh members hbody =>
      have hother : ¬ r.status = 404 := by omega
      rw [if_neg hother, if_pos ⟨hlow, hhigh⟩]
      exact bodyVerdict_eq_ok_iff.mpr ⟨members, hbody, rfl⟩

/-- Whatever is wrong with a body, it is no cancellation. -/
theorem bodyVerdict_ordinary (h : bodyVerdict body = .error e) : e.isCancellation = false := by
  unfold bodyVerdict at h
  split at h
  · cases h
    rfl
  · unfold documentVerdict at h
    split at h <;> cases h <;> rfl

/-- Whatever is wrong with a response, it is no cancellation. -/
theorem verdict_ordinary (h : r.verdict = .error e) : e.isCancellation = false := by
  unfold verdict at h
  split at h
  · cases h
  · split at h
    · exact bodyVerdict_ordinary h
    · cases h
      rfl

end verdict

end UsersResponse

namespace Simulation

/-! ## Exchanges -/

/-- What comes of a request to the users service. -/
inductive Reply where
  /-- A response. -/
  | response (r : UsersResponse)
  /-- The request breaks off with an error, which is no cancellation. -/
  | broken (cause : Failure) (ordinary : cause.isCancellation = false)

namespace Reply

/-- What a reply says about a user, if it says anything. -/
def Says : Reply → Bool → Prop
  | response r, found => r.Says found
  | broken _ _, _ => False

/-- What the client makes of a reply. -/
def verdict : Reply → Except Failure Bool
  | response r => r.verdict
  | broken cause _ => .error cause

variable {x : Reply} {found : Bool}

/-- The client learns from a reply exactly what it says. -/
theorem verdict_eq_ok_iff : x.verdict = .ok found ↔ x.Says found := by
  cases x with
  | response r => exact UsersResponse.verdict_eq_ok_iff
  | broken cause ordinary => exact ⟨nofun, False.elim⟩

/-- A reply that says nothing is an ordinary failure. -/
theorem isOrdinary_verdict (h : ∀ found, ¬ x.Says found) : IsOrdinary x.verdict := by
  cases hverdict : x.verdict with
  | ok found => exact absurd (verdict_eq_ok_iff.mp hverdict) (h found)
  | error e =>
    refine ⟨e, rfl, ?_⟩
    cases x with
    | response r => exact UsersResponse.verdict_ordinary hverdict
    | broken cause ordinary =>
      cases hverdict
      exact ordinary

end Reply

/-- A request to the users service with what comes of it. -/
structure Exchange where
  /-- How long it takes. -/
  delay : Span
  /-- What comes of it. -/
  reply : Reply

/-- What a call of the client comes to in an exchange. -/
def Exchange.outcome (x : Exchange) : Outcome Bool where
  delay := x.delay
  turn := match x.reply.verdict with
    | .ok found => .answer found
    | .error e => .raise e

/-- The users service is asked over the web: in these exchanges, and then ever again in the last. -/
structure Directory.IsOverWeb (d : Directory) (exchanges : List Exchange) (last : Exchange) :
    Prop where
  /-- These exchanges come first. -/
  script : d.script = exchanges.map Exchange.outcome
  /-- The last one comes after them. -/
  otherwise : d.otherwise = last.outcome

/-- What comes of the request of this number, counted from one. -/
def replyTo (exchanges : List Exchange) (last : Exchange) (number : Nat) : Reply :=
  (exchanges[number - 1]?.getD last).reply

/-- What a call comes to is what the reply to its request says. -/
theorem Directory.IsOverWeb.outcome_eq {d : Directory} {exchanges : List Exchange}
    {last : Exchange} (h : d.IsOverWeb exchanges last) (user : Int) (number : Nat) :
    d.outcome user number = (replyTo exchanges last number).verdict := by
  have hturn : d.script[number - 1]?.getD d.otherwise =
      (exchanges[number - 1]?.getD last).outcome := by
    rw [h.script, h.otherwise, List.getElem?_map, Option.getD_map]
  unfold Directory.outcome replyTo
  rw [hturn]
  unfold Exchange.outcome Directory.verdict
  cases (exchanges[number - 1]?.getD last).reply.verdict <;> rfl

/-- The reply of this number is the first that says something. -/
structure FirstToSay (exchanges : List Exchange) (last : Exchange) (number : Nat) (found : Bool) :
    Prop where
  /-- It is counted from one. -/
  counted : 1 ≤ number
  /-- This is what it says. -/
  speaks : (replyTo exchanges last number).Says found
  /-- Those before it say nothing. -/
  silent : ∀ n, 1 ≤ n → n < number → ∀ other, ¬ (replyTo exchanges last n).Says other

/-- There is one first reply at most, and it says one thing. -/
theorem FirstToSay.unique {exchanges : List Exchange} {last : Exchange} {n n' : Nat}
    {found found' : Bool} (h : FirstToSay exchanges last n found)
    (h' : FirstToSay exchanges last n' found') : n = n' ∧ found = found' := by
  rcases Nat.lt_trichotomy n n' with hlt | rfl | hlt
  · exact absurd h.speaks (h'.silent n h.counted hlt found)
  · have hfound := (Reply.verdict_eq_ok_iff.mpr h.speaks).symm.trans
      (Reply.verdict_eq_ok_iff.mpr h'.speaks)
    exact ⟨rfl, Except.ok.inj hfound⟩
  · exact absurd h'.speaks (h.silent n' h'.counted hlt found')

/-- No reply of the first so many says anything. -/
def NoneSays (exchanges : List Exchange) (last : Exchange) (limit : Nat) : Prop :=
  ∀ n, 1 ≤ n → n ≤ limit → ∀ found, ¬ (replyTo exchanges last n).Says found

/-- Some reply of the first so many is the first to say something, or none of them does. -/
theorem firstToSay_or_noneSays (exchanges : List Exchange) (last : Exchange) (limit : Nat) :
    (∃ n found, n ≤ limit ∧ FirstToSay exchanges last n found) ∨
      NoneSays exchanges last limit := by
  induction limit with
  | zero => exact .inr fun n hn hle => absurd (hn.trans hle) (Nat.not_succ_le_zero 0)
  | succ limit ih =>
    rcases ih with ⟨n, found, hle, hfirst⟩ | hnone
    · exact .inl ⟨n, found, Nat.le_succ_of_le hle, hfirst⟩
    · by_cases hspeaks : ∃ found, (replyTo exchanges last (limit + 1)).Says found
      · obtain ⟨found, hspeaks⟩ := hspeaks
        exact .inl ⟨limit + 1, found, Nat.le_refl _, Nat.le_add_left 1 limit, hspeaks,
          fun n hn hlt => hnone n hn (Nat.le_of_lt_succ hlt)⟩
      · refine .inr fun n hn hle => ?_
        rcases Nat.le_succ_iff.mp hle with hle | rfl
        · exact hnone n hn hle
        · exact not_exists.mp hspeaks

namespace Plan

/-! ## The two ends of a call -/

/-- A call that learned something from the request of this number, which was its last. -/
structure Learned (w : World) (user : Int) (number : Nat) (found : Bool)
    (r : Except Failure Unit) (w' : World) : Prop where
  /-- There were so many requests. -/
  requests : w'.directory = w.directory.after user number
  /-- It is written, and nothing else is. -/
  entries : ∀ other, w'.cache.entry? other =
    if other = user then some ⟨found, w'.now⟩ else w.cache.entry? other
  /-- The breaker heard of one success. -/
  breaker : w'.cache.breaker = (admitted w.cache w.now).breaker.succeed
  /-- It is the answer. -/
  result : r = Cache.answer user found

/-- A call that learned nothing in as many requests as there may be. -/
structure GaveUp (w : World) (user : Int) (r : Except Failure Unit) (w' : World) : Prop where
  /-- There were so many requests. -/
  requests : w'.directory = w.directory.after user w.cache.policy.limit
  /-- The breaker heard of one failure, and the entries stay. -/
  failed : Failed w w'
  /-- The answer is that of an entry which is not too old, or of a cache without it. -/
  result : r = Existence.answerBy w.cache user "remote check failed"
    (w.cache.youngEntry? w'.now (2 * w.cache.policy.ttl) user)
  /-- It raises only where an entry has it that the user is missing, or where nothing is known and
  the cache is not to fail open. -/
  raises : ∀ e, r = .error e →
    (e = .ownerMissing user ∧ ∃ entry, w.cache.entry? user = some entry ∧
      w'.now - entry.writtenAt ≤ 2 * w.cache.policy.ttl ∧ entry.found = false) ∨
    (e = .unverifiable user "remote check failed" ∧ w.cache.policy.failOpen = false)

section ends

variable {w w' : World} {user : Int} {r : Except Failure Unit} {exchanges : List Exchange}
  {last : Exchange}

/-- What the fallback of a call may raise. -/
theorem raises_of_fallback {now : Instant} {age : Span} {reason : String} {e : Failure}
    (h : Existence.answerBy w.cache user reason (w.cache.youngEntry? now age user) = .error e) :
    (e = .ownerMissing user ∧ ∃ entry, w.cache.entry? user = some entry ∧
      now - entry.writtenAt ≤ age ∧ entry.found = false) ∨
    (e = .unverifiable user reason ∧ w.cache.policy.failOpen = false) := by
  cases hyoung : w.cache.youngEntry? now age user with
  | none =>
    rw [hyoung] at h
    unfold Existence.answerBy at h
    cases hopen : w.cache.policy.failOpen with
    | true => simp [hopen] at h
    | false =>
      simp only [hopen, Bool.false_eq_true, if_false, Except.error.injEq] at h
      exact .inr ⟨h.symm, rfl⟩
  | some entry =>
    rw [hyoung] at h
    unfold Existence.answerBy Cache.answer at h
    obtain ⟨hentry, hage⟩ := Option.filter_eq_some_iff.mp hyoung
    cases hfound : entry.found with
    | true => simp [hfound] at h
    | false =>
      simp only [hfound, Bool.false_eq_true, if_false, Except.error.injEq] at h
      exact .inl ⟨h.symm, entry, hentry, of_decide_eq_true hage, hfound⟩

/-- A call that comes to a reply which says something learns it. -/
theorem learned_of_firstToSay {position : ℕ∞} {number : Nat} {found : Bool}
    (hweb : w.directory.IsOverWeb exchanges last)
    (hposition : IsFirstDecisive (w.directory.outcome user) position)
    (hdecided : Decided w user position r w') (hle : number ≤ w.cache.policy.limit)
    (hfirst : FirstToSay exchanges last number found) : Learned w user number found r w' := by
  have houtcome : w.directory.outcome user number = .ok found := by
    rw [hweb.outcome_eq]
    exact Reply.verdict_eq_ok_iff.mpr hfirst.speaks
  have hbefore : ∀ j, 0 < j → j < number → IsOrdinary (w.directory.outcome user j) := by
    intro j hj hlt
    rw [hweb.outcome_eq]
    exact Reply.isOrdinary_verdict (hfirst.silent j hj hlt)
  have hnot : ¬ IsOrdinary (w.directory.outcome user number) := by
    rw [houtcome]
    rintro ⟨e, he, -⟩
    cases he
  obtain rfl := hposition.eq hfirst.counted hbefore hnot
  obtain ⟨hbreaker, hentries, hresult⟩ := hdecided.answered number rfl hle found houtcome
  obtain ⟨n, hn, hdirectory⟩ := hdecided.calls
  rw [min_eq_left (ENat.natCast_le_natCast.mpr hle)] at hn
  rw [ENat.natCast_inj.mp hn] at hdirectory
  exact ⟨hdirectory, hentries, hbreaker, hresult⟩

/-- A call whose replies all say nothing gives up. -/
theorem gaveUp_of_noneSays {position : ℕ∞} (hweb : w.directory.IsOverWeb exchanges last)
    (hposition : IsFirstDecisive (w.directory.outcome user) position)
    (hdecided : Decided w user position r w')
    (hnone : NoneSays exchanges last w.cache.policy.limit) : GaveUp w user r w' := by
  have hordinary : ∀ j, 0 < j → j ≤ w.cache.policy.limit →
      IsOrdinary (w.directory.outcome user j) := by
    intro j hj hle
    rw [hweb.outcome_eq]
    exact Reply.isOrdinary_verdict (hnone j hj hle)
  have hlt : w.cache.policy.limit < position :=
    hposition.lt (fun j hj hlt => hordinary j hj hlt.le) (hordinary _ (limit_pos _) le_rfl)
  obtain ⟨hfailed, hresult⟩ := hdecided.exhausted hlt
  rw [Existence.fallback_fst] at hresult
  obtain ⟨n, hn, hdirectory⟩ := hdecided.calls
  rw [min_eq_right hlt.le] at hn
  rw [ENat.natCast_inj.mp hn] at hdirectory
  exact ⟨hdirectory, hfailed, hresult, fun e he => raises_of_fallback (hresult.symm.trans he)⟩

end ends

/-- What a call does that is let through to the users service and that no other one and no eviction
overlaps: it comes to an end.  It learns from the first reply that says something, where that is one
of those it may ask for; else nothing is written, and it gives up. -/
theorem learns_from_exchanges {w : World} {user : Int} {exchanges : List Exchange}
    {last : Exchange} (hweb : w.directory.IsOverWeb exchanges last) (hremote : ¬ IsSpared w user) :
    (∃ r w', (check user).Runs (Undisturbed False) w r w') ∧
    ∀ r w', (check user).Runs (Undisturbed False) w r w' →
      (∃ number found, number ≤ w.cache.policy.limit ∧
        FirstToSay exchanges last number found ∧ Learned w user number found r w') ∨
      (NoneSays exchanges last w.cache.policy.limit ∧ GaveUp w user r w') := by
  refine ⟨exists_runs (isSolitary_check user) (fun _ w => ?_) w, fun r w' h => ?_⟩
  · exact ⟨.ok (), w, rfl, rfl, .inl rfl⟩
  obtain ⟨position, hposition, hdecided | ⟨hcancelled, -⟩⟩ := decided_of_runs hremote h
  · rcases firstToSay_or_noneSays exchanges last w.cache.policy.limit with
      ⟨number, found, hle, hfirst⟩ | hnone
    · exact .inl ⟨number, found, hle, hfirst,
        learned_of_firstToSay hweb hposition hdecided hle hfirst⟩
    · exact .inr ⟨hnone, gaveUp_of_noneSays hweb hposition hdecided hnone⟩
  · exact hcancelled.elim

/-- A response with this status and this text. -/
def reply (status : Int) (text : String) : Exchange := ⟨1, .response ⟨status, text.toUTF8.toList⟩⟩

/-- A server that cannot answer, and then one that answers beside the point. -/
def poorReplies : List Exchange :=
  [reply 503 "\x7b\"exists\": true\x7d", reply 200 "[true]"]

/-- After them a user is missing who was known once. -/
def poorService : World :=
  { Rehearsal.opening {} with
    now := 900
    cache := { Cache.fresh ⟨300, 3, ⟨0, 1⟩, false⟩ ⟨"users", 1, 30⟩ with
      entries := [(7, ⟨true, 0⟩)] }
    directory :=
      { script := poorReplies.map Exchange.outcome
        otherwise := (reply 200 "\x7b\"exists\": 0\x7d").outcome } }

/-- The third response is the first that says something, and it is what the call learns. -/
theorem learns_from_exchanges_of_poorReplies :
    ∃ r w', (check 7).Runs (Undisturbed False) poorService r w' ∧
      Learned poorService 7 3 false r w' := by
  have hremote : ¬ IsSpared poorService 7 := by
    rintro (hfresh | hrefused)
    · cases hfresh
    · cases hrefused
  have hfirst : FirstToSay poorReplies (reply 200 "\x7b\"exists\": 0\x7d") 3 false := by
    refine ⟨by decide, Reply.verdict_eq_ok_iff.mp (by decide +kernel), fun n hn hlt found => ?_⟩
    rw [← Reply.verdict_eq_ok_iff]
    obtain rfl | rfl : n = 1 ∨ n = 2 := by omega
    · revert found
      decide +kernel
    · revert found
      decide +kernel
  obtain ⟨⟨r, w', hruns⟩, hends⟩ :=
    learns_from_exchanges (w := poorService) ⟨rfl, rfl⟩ hremote
  refine ⟨r, w', hruns, ?_⟩
  rcases hends r w' hruns with ⟨number, found, -, hnumber, hlearned⟩ | ⟨hnone, -⟩
  · obtain ⟨rfl, rfl⟩ := hnumber.unique hfirst
    exact hlearned
  · exact absurd hfirst.speaks (hnone 3 (by decide) (by decide) false)

end Plan

end Simulation

end EventRelay
