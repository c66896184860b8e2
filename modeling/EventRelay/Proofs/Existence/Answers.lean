import EventRelay.Proofs.Existence.Memory

/-!
# What an answer rests on

An answer about a user is worth what the last remote check about the user is worth: it is evidence
as long as it is no older than twice the time for which an entry answers by itself, and no eviction
of the user came after it.  Since every entry is what the history tells, a call that ends is
answered by the evidence there is at that moment, also where other calls and evictions came between
its steps.

* `tried_of_reachable`: which attempts the calls under way have made.
* `Ends`: how a call ends, and with what result; `ends_of_gone`, `ends_or_admitted`: no call ends
  otherwise.
* `answer_justified`: the main statement.
-/

namespace EventRelay

namespace Existence

variable {s s' : Inquiries}

/-! ## Attempts -/

/-- A call has made its attempts one after another, and no more than a call may. -/
structure Tried (limit : Nat) (history : List Incident) (c : Call) : Prop where
  /-- The attempts up to the present one have begun, all of them about its user. -/
  asked : ∀ attempt user, .asked c.number attempt user ∈ history ↔
    (1 ≤ attempt ∧ attempt ≤ c.check.attempt) ∧ user = c.check.user
  /-- They are not too many. -/
  within : c.check.attempt ≤ limit
  /-- There is another one to come where the call waits. -/
  again : c.resting = true → c.check.attempt < limit

section attempts

variable {limit : Nat} {history : List Incident} {c : Call}

/-- What is noted of others leaves the attempts of a call. -/
theorem Tried.note (h : Tried limit history c) {incidents : List Incident}
    (hnone : ∀ attempt user, .asked c.number attempt user ∉ incidents) :
    Tried limit (history ++ incidents) c where
  asked attempt user := by
    rw [List.mem_append, or_iff_left (hnone attempt user)]
    exact h.asked attempt user
  within := h.within
  again := h.again

/-- A call that is let through begins its first attempt. -/
theorem Tried.begun (hlimit : 1 ≤ limit) (hnumber : ∀ x ∈ history, x.call? ≠ some c.number)
    (hfirst : c.check.attempt = 1) (hasking : c.resting = false) :
    Tried limit (history ++ [.asked c.number c.check.attempt c.check.user]) c where
  asked attempt user := by
    have hold : .asked c.number attempt user ∉ history := fun hmem => hnumber _ hmem rfl
    rw [List.mem_append, or_iff_right hold, List.mem_singleton, Incident.asked.injEq, hfirst]
    constructor
    · rintro ⟨-, rfl, rfl⟩
      exact ⟨⟨Nat.le_refl _, Nat.le_refl _⟩, rfl⟩
    · rintro ⟨⟨hle, hge⟩, huser⟩
      exact ⟨rfl, Nat.le_antisymm hge hle, huser⟩
  within := by rw [hfirst]; exact hlimit
  again hresting := by
    rw [hasking] at hresting
    cases hresting

/-- A call that goes on after a wait begins its next attempt. -/
theorem Tried.resumed (h : Tried limit history c) (hresting : c.resting = true) :
    Tried limit (history ++ [.asked c.number (c.check.attempt + 1) c.check.user])
      { c with check := { c.check with attempt := c.check.attempt + 1 }, resting := false } where
  asked attempt user := by
    rw [List.mem_append, List.mem_singleton, Incident.asked.injEq, h.asked]
    constructor
    · rintro (⟨⟨hle, hge⟩, huser⟩ | ⟨-, rfl, rfl⟩)
      · exact ⟨⟨hle, Nat.le_succ_of_le hge⟩, huser⟩
      · exact ⟨⟨Nat.le_add_left 1 _, Nat.le_refl _⟩, rfl⟩
    · rintro ⟨⟨hle, hge⟩, huser⟩
      rcases Nat.le_succ_iff.mp hge with hge | heq
      · exact .inl ⟨⟨hle, hge⟩, huser⟩
      · exact .inr ⟨rfl, heq, huser⟩
  within := h.again hresting
  again := nofun

end attempts

/-- A call that is to ask again may do so. -/
theorem lt_limit_of_again {c : Cache} {now : Instant} {user : Int} {attempt : Nat}
    {outcome : Except Failure Bool} {wait : Span}
    (h : (c.settle now user attempt outcome).decision = .again wait) :
    attempt < c.policy.limit := by
  unfold Cache.settle at h
  cases outcome with
  | ok found => cases h
  | error e =>
    dsimp only at h
    by_cases he : e.isCancellation = true
    · simp only [he, if_true] at h
      cases h
    · by_cases hagain : attempt < c.policy.limit
      · exact hagain
      · simp only [he, hagain, Bool.false_eq_true, if_false] at h
        cases h

/-- A call may make one attempt at least. -/
theorem one_le_limit (policy : CachePolicy) : 1 ≤ policy.limit := by
  unfold CachePolicy.limit
  omega

/-- An answer from an entry is no attempt. -/
theorem not_asked_servedBy (other : Int) (basis? : Option CacheEntry) (call attempt : Nat)
    (user : Int) : .asked call attempt user ∉ servedBy other basis? := by
  intro hmem
  cases basis? with
  | none => cases hmem
  | some e => cases List.mem_singleton.mp hmem

/-- The end of a call is no attempt. -/
theorem not_asked_endings (c : Call) (outcome : Except Failure Bool) (call attempt : Nat)
    (user : Int) : .asked call attempt user ∉ s.endings c outcome := by
  unfold Inquiries.endings
  cases outcome with
  | ok found =>
    intro hmem
    cases List.mem_singleton.mp hmem
  | error e =>
    dsimp only
    intro hmem
    rcases List.mem_cons.mp hmem with heq | hmem
    · cases heq
    · split at hmem
      · cases hmem
      · exact not_asked_servedBy _ _ call attempt user hmem

/-! ## Starts and ends of calls -/

/-- A call that starts is answered at once, or begins to ask. -/
theorem consult_cases (s : Inquiries) (user : Int) :
    (∃ result, (s.cache.consult s.now user).decision = .answered result ∧
      s.consult user = s.turn (s.cache.consult s.now user).cache s.calls
        (servedBy user (answering? s.cache s.now user))) ∨
    (s.cache.consult s.now user).decision = .admitted ∧
      s.consult user = { s.turn (s.cache.consult s.now user).cache
          (s.calls ++ [⟨s.count, ⟨user, 1⟩, false, s.now, s.circuit⟩]) [.asked s.count 1 user] with
        count := s.count + 1 } := by
  unfold Inquiries.consult
  dsimp only
  rcases hdecision : (s.cache.consult s.now user).decision with result | _
  · exact .inl ⟨result, rfl, rfl⟩
  · exact .inr ⟨rfl, rfl⟩

/-- An attempt that comes to an outcome ends its call, or is followed by a wait. -/
theorem settle_cases (s : Inquiries) (before after : List Call) (c : Call)
    (outcome : Except Failure Bool) :
    (∃ result,
      (s.cache.settle s.now c.check.user c.check.attempt outcome).decision = .finished result ∧
      s.settle before after c outcome =
        s.turn (s.cache.settle s.now c.check.user c.check.attempt outcome).cache (before ++ after)
          (s.endings c outcome)) ∨
    ∃ wait, (s.cache.settle s.now c.check.user c.check.attempt outcome).decision = .again wait ∧
      s.settle before after c outcome =
        s.turn (s.cache.settle s.now c.check.user c.check.attempt outcome).cache
          (before ++ { c with resting := true } :: after) [] := by
  unfold Inquiries.settle
  dsimp only
  rcases hdecision : (s.cache.settle s.now c.check.user c.check.attempt outcome).decision with
    result | wait
  · exact .inl ⟨result, rfl, rfl⟩
  · exact .inr ⟨wait, rfl, rfl⟩

/-- The calls under way have made their attempts one after another. -/
def AllTried (limit : Nat) (s : Inquiries) : Prop := ∀ c ∈ s.calls, Tried limit s.history c

/-- After every step the calls under way have made their attempts in order. -/
theorem allTried_step (hnumbered : Numbered s) (hsound : Sound s.history s.count)
    (h : AllTried s.cache.policy.limit s) (hstep : Step s s') :
    AllTried s.cache.policy.limit s' := by
  intro d hd
  cases hstep with
  | consult user =>
    obtain ⟨result, -, heq⟩ | ⟨-, heq⟩ := consult_cases s user
    · rw [heq] at hd ⊢
      exact (h d hd).note (not_asked_servedBy user _ d.number)
    · rw [heq] at hd ⊢
      rcases List.mem_append.mp hd with hd | hd
      · refine (h d hd).note fun attempt other hmem => ?_
        obtain ⟨hnumber, -, -⟩ := Incident.asked.inj (List.mem_singleton.mp hmem)
        exact Nat.ne_of_lt (hnumbered.given d hd) hnumber
      · rw [List.mem_singleton.mp hd]
        exact Tried.begun (c := ⟨s.count, ⟨user, 1⟩, false, s.now, s.circuit⟩) (one_le_limit _)
          (fun x hx hcall => Nat.lt_irrefl _ (hsound.known x hx _ hcall)) rfl rfl
  | @settle before after c hc hasking outcome =>
    obtain ⟨result, -, heq⟩ | ⟨wait, hagain, heq⟩ := settle_cases s before after c outcome
    · rw [heq] at hd ⊢
      exact (h d (mem_of_mem_remove hc hd)).note (not_asked_endings c outcome d.number)
    · rw [heq] at hd ⊢
      refine Tried.note ?_ nofun
      rcases mem_of_mem_replace hc hd with hd | rfl
      · exact h d hd
      · have htried := h c (mem_of_split hc)
        exact ⟨htried.asked, htried.within, fun _ => lt_limit_of_again hagain⟩
  | @resume before after c hc hresting =>
    rcases mem_or_eq_of_mem_replace hd with hd | rfl
    · refine (h d (mem_of_mem_remove hc hd)).note fun attempt other hmem => ?_
      obtain ⟨hnumber, -, -⟩ := Incident.asked.inj (List.mem_singleton.mp hmem)
      exact hnumbered.ne_of_other hc hd hnumber
    · exact (h c (mem_of_split hc)).resumed hresting
  | @cancel before after c hc hresting cause hcause =>
    exact (h d (mem_of_mem_remove hc hd)).note (not_asked_endings c (.error cause) d.number)
  | evict who =>
    obtain ⟨entries, hevict⟩ := evict_eq_turn s who
    rw [hevict] at hd ⊢
    exact (h d hd).note fun attempt user hmem => nomatch List.mem_singleton.mp hmem
  | @pass later hle => exact h d hd

/-- They have in every state of a run. -/
theorem tried_of_reachable {policy : CachePolicy} {circuit : BreakerConfig Span}
    {allowed : Inquiries → Inquiries → Prop} (h : Reachable policy circuit allowed s) :
    AllTried policy.limit s := by
  induction h with
  | start now => exact fun c hc => absurd hc List.not_mem_nil
  | step hreach hstep _ ih =>
    have hpolicy := policy_of_reachable hreach
    rw [← hpolicy] at ih ⊢
    have hsound := (chronicled_of_reachable hreach).sound
    exact allTried_step (numbered_of_reachable hreach) hsound ih hstep

/-- In what way a call ended. -/
inductive Manner where
  /-- As soon as it started. -/
  | atOnce
  /-- By the outcome of an attempt. -/
  | asking (call : Nat) (outcome : Except Failure Bool)
  /-- By a cancellation in a wait. -/
  | waiting (call : Nat) (cause : Failure)

/-- The cancellation that ended a call. -/
def Manner.cancellation? : Manner → Option Failure
  | .asking _ (.error e) => if e.isCancellation then some e else none
  | .waiting _ cause => some cause
  | _ => none

/-- In a step, a call about a user ends with this result. -/
inductive Ends : Inquiries → Inquiries → Int → Manner → Except Failure Unit → Prop where
  /-- A call is not let through. -/
  | atOnce {s : Inquiries} {user : Int} {result : Except Failure Unit}
      (hanswered : (s.cache.consult s.now user).decision = .answered result) :
      Ends s (s.consult user) user .atOnce result
  /-- An attempt came to an outcome, and no other attempt follows. -/
  | asking {s : Inquiries} {before after : List Call} {c : Call} {outcome : Except Failure Bool}
      {result : Except Failure Unit} (hc : s.calls = before ++ c :: after)
      (hasking : c.resting = false)
      (hfinished : (s.cache.settle s.now c.check.user c.check.attempt outcome).decision =
        .finished result) :
      Ends s (s.settle before after c outcome) c.check.user (.asking c.number outcome) result
  /-- A call is cancelled in a wait. -/
  | waiting {s : Inquiries} {before after : List Call} {c : Call} {cause : Failure}
      {result : Except Failure Unit} (hc : s.calls = before ++ c :: after)
      (hresting : c.resting = true) (hcause : cause.isCancellation = true)
      (hfinished : (s.cache.abandon s.now c.check.user cause).decision = .finished result) :
      Ends s (s.cancel before after c cause) c.check.user (.waiting c.number cause) result

section ends

variable {user : Int} {manner : Manner} {result : Except Failure Unit}

/-- A call ends in a step. -/
theorem step_of_ends (h : Ends s s' user manner result) : Step s s' := by
  cases h with
  | atOnce hanswered => exact .consult s user
  | asking hc hasking hfinished => exact .settle s hc hasking _
  | waiting hc hresting hcause hfinished => exact .cancel s hc hresting hcause

/-- A call ends at the time at which it takes its last step. -/
theorem now_of_ends (h : Ends s s' user manner result) : s'.now = s.now := by
  cases h with
  | atOnce hanswered =>
    obtain ⟨_, -, hturn⟩ | ⟨-, hturn⟩ := consult_cases s user <;> rw [hturn] <;> rfl
  | @asking before after c outcome _ hc hasking hfinished =>
    obtain ⟨_, -, hturn⟩ | ⟨_, -, hturn⟩ := settle_cases s before after c outcome <;>
      rw [hturn] <;> rfl
  | waiting hc hresting hcause hfinished => rfl

/-- A call that starts ends at once or is under way. -/
theorem ends_or_admitted (s : Inquiries) (user : Int) :
    (∃ result, Ends s (s.consult user) user .atOnce result) ∨
      (⟨s.count, ⟨user, 1⟩, false, s.now, s.circuit⟩ : Call) ∈ (s.consult user).calls := by
  obtain ⟨result, hanswered, -⟩ | ⟨-, heq⟩ := consult_cases s user
  · exact .inl ⟨result, .atOnce hanswered⟩
  · rw [heq]
    exact .inr (List.mem_append_right _ List.mem_cons_self)

/-- The one that is not beside the others any more is the one that was singled out. -/
theorem eq_of_gone {before after : List Call} {c d : Call} (hc : s.calls = before ++ c :: after)
    (hd : d ∈ s.calls) (hgone : d.number ∉ (before ++ after).map (·.number)) : d = c := by
  rw [hc] at hd
  exact (mem_or_eq_of_mem_replace hd).resolve_left fun hmem => hgone (List.mem_map_of_mem hmem)

/-- A call that goes on keeps the numbers of the calls. -/
theorem mem_numbers_replace {before after : List Call} {c d : Call} (c' : Call)
    (hc : s.calls = before ++ c :: after) (hnumber : c'.number = c.number) (hd : d ∈ s.calls) :
    d.number ∈ (before ++ c' :: after).map (·.number) := by
  have hmem := List.mem_map_of_mem (f := (·.number)) hd
  rw [hc, List.map_append, List.map_cons] at hmem
  rw [List.map_append, List.map_cons, hnumber]
  exact hmem

/-- A call that is under way no more has ended. -/
theorem ends_of_gone (hstep : Step s s') {c : Call} (hc : c ∈ s.calls)
    (hgone : c.number ∉ s'.calls.map (·.number)) :
    ∃ manner result, Ends s s' c.check.user manner result := by
  cases hstep with
  | consult user =>
    obtain ⟨result, -, heq⟩ | ⟨-, heq⟩ := consult_cases s user
    · rw [heq] at hgone
      exact absurd (List.mem_map_of_mem hc) hgone
    · rw [heq] at hgone
      exact absurd (List.mem_map_of_mem (List.mem_append_left _ hc)) hgone
  | @settle before after d hd hasking outcome =>
    obtain ⟨result, hfinished, heq⟩ | ⟨wait, -, heq⟩ := settle_cases s before after d outcome
    · have hgone' := hgone
      rw [heq] at hgone'
      obtain rfl := eq_of_gone hd hc hgone'
      exact ⟨_, result, .asking hd hasking hfinished⟩
    · rw [heq] at hgone
      exact absurd (mem_numbers_replace { d with resting := true } hd rfl hc) hgone
  | @resume before after d hd hresting =>
    let next : Call :=
      { d with check := { d.check with attempt := d.check.attempt + 1 }, resting := false }
    exact absurd (mem_numbers_replace next hd rfl hc) hgone
  | @cancel before after d hd hresting cause hcause =>
    obtain rfl := eq_of_gone hd hc hgone
    refine ⟨_, .error cause, .waiting hd hresting hcause ?_⟩
    unfold Cache.abandon Cache.settle
    simp only [hcause, if_true]
  | evict who =>
    obtain ⟨entries, hevict⟩ := evict_eq_turn s who
    rw [hevict] at hgone
    exact absurd (List.mem_map_of_mem hc) hgone
  | @pass later hle => exact absurd (List.mem_map_of_mem hc) hgone

/-! ## Justified answers -/

/-- The result of a call goes by the evidence about its user: the user is missing exactly when the
evidence says so, and the caller hears that nothing can be said exactly when there is no evidence
and the cache is not to fail open. -/
structure Justified (policy : CachePolicy) (s : Inquiries) (user : Int)
    (result : Except Failure Unit) : Prop where
  /-- The user is missing by the evidence. -/
  missing : result = .error (.ownerMissing user) ↔
    ∃ e, evidence? policy.ttl s user = some e ∧ e.found = false
  /-- The user exists by the evidence, or without any. -/
  present : result = .ok () ↔
    (∃ e, evidence? policy.ttl s user = some e ∧ e.found = true) ∨
      evidence? policy.ttl s user = none ∧ policy.failOpen = true
  /-- Nothing can be said. -/
  unverifiable : (∃ reason, result = .error (.unverifiable user reason)) ↔
    evidence? policy.ttl s user = none ∧ policy.failOpen = false

/-- Every remote attempt of a call failed: it has made all the attempts that it may make, and none
was answered. -/
structure Exhausted (policy : CachePolicy) (history : List Incident) (call : Nat) (user : Int) :
    Prop where
  /-- It has made all attempts. -/
  asked : ∀ attempt other, .asked call attempt other ∈ history ↔
    (1 ≤ attempt ∧ attempt ≤ policy.limit) ∧ other = user
  /-- None was answered. -/
  unanswered : ∀ x ∈ history, x.success? ≠ some call

variable {policy : CachePolicy} {circuit : BreakerConfig Span}

/-- An answer by the evidence is justified. -/
theorem justified_answerBy (c : Cache) (hpolicy : c.policy = policy) (reason : String)
    (hresult : result = answerBy c user reason (evidence? policy.ttl s user)) :
    Justified policy s user result := by
  rw [hresult]
  rcases hevidence : evidence? policy.ttl s user with _ | ⟨_ | _, writtenAt⟩
  · rcases hopen : policy.failOpen
    · constructor <;> simp [hevidence, answerBy, hpolicy, hopen]
    · constructor <;> simp [hevidence, answerBy, hpolicy, hopen]
  · constructor <;> simp [hevidence, answerBy, Cache.answer]
  · constructor <;> simp [hevidence, answerBy, Cache.answer]

/-- The entry that answers a caller who is not let through is one of twice the age. -/
theorem answering?_eq {c : Cache} {now : Instant} (httl : 0 ≤ c.policy.ttl) (user : Int) :
    answering? c now user = c.youngEntry? now (2 * c.policy.ttl) user := by
  unfold answering? Cache.youngEntry?
  rcases c.entry? user with _ | e
  · rfl
  · by_cases hfresh : now - e.writtenAt ≤ c.policy.ttl
    · have hyoung : now - e.writtenAt ≤ 2 * c.policy.ttl := by
        rw [Int.two_mul]
        exact Int.le_trans hfresh (Int.le_add_of_nonneg_left httl)
      simp [Option.filter, hfresh, hyoung]
    · simp [Option.filter, hfresh]

/-- A caller who is answered at once has a fresh entry or is refused by the breaker. -/
theorem fresh_or_refused {c : Cache} {now : Instant}
    (h : (c.consult now user).decision = .answered result) :
    (∃ e, c.youngEntry? now c.policy.ttl user = some e) ∨
      (c.breaker.allow c.circuit now).1 = false := by
  unfold Cache.consult at h
  rcases hyoung : c.youngEntry? now c.policy.ttl user with _ | e
  · rcases hallow : c.breaker.allow c.circuit now with ⟨_ | _, breaker⟩
    · exact .inr rfl
    · simp only [hyoung, hallow, if_true] at h
      cases h
  · exact .inl ⟨e, rfl⟩

/-- A call that ends with a failed attempt may make no other one. -/
theorem limit_le_of_finished {c : Cache} {now : Instant} {attempt : Nat} {e : Failure}
    (he : e.isCancellation = false)
    (h : (c.settle now user attempt (.error e)).decision = .finished result) :
    c.policy.limit ≤ attempt := by
  unfold Cache.settle at h
  by_cases hagain : attempt < c.policy.limit
  · simp only [he, hagain, if_true, Bool.false_eq_true, if_false] at h
    cases h
  · exact Nat.le_of_not_lt hagain

/-- A call that ends with an answer by the evidence: what is to be shown of it. -/
structure Grounded (policy : CachePolicy) (s s' : Inquiries) (user : Int) (manner : Manner)
    (result : Except Failure Unit) : Prop where
  /-- The result goes by the evidence. -/
  justified : Justified policy s' user result
  /-- Evidence that does not answer by itself any more is used where the breaker refused the call or
  every remote attempt failed. -/
  old : ∀ e, evidence? policy.ttl s' user = some e → policy.ttl < s'.now - e.writtenAt →
    manner = .atOnce ∧ (s.cache.breaker.allow s.cache.circuit s.now).1 = false ∨
      ∃ call cause, manner = .asking call (.error cause) ∧ Exhausted policy s'.history call user

/-- A call that ends at once is answered by the evidence. -/
theorem grounded_atOnce (h : Reachable policy circuit Anything s) (httl : 0 ≤ policy.ttl)
    (hanswered : (s.cache.consult s.now user).decision = .answered result) :
    Grounded policy s (s.consult user) user .atOnce result := by
  obtain rfl := policy_of_reachable h
  obtain ⟨answer, -, hturn⟩ | ⟨hadmitted, -⟩ := consult_cases s user
  swap
  · rw [hanswered] at hadmitted
    cases hadmitted
  have hevidence : evidence? s.cache.policy.ttl (s.consult user) user =
      s.cache.youngEntry? s.now (2 * s.cache.policy.ttl) user := by
    rw [← (remembered_of_reachable h).evidence?, hturn]
    unfold Existence.evidence?
    rw [turn_history, known?_append_of_silent _ _ (silent_servedBy user user _)]
    rfl
  have hnow : (s.consult user).now = s.now := by
    rw [hturn]
    rfl
  constructor
  case justified =>
    refine justified_answerBy s.cache rfl "circuit open" ?_
    rw [hevidence, ← answering?_eq httl]
    exact answered_consult hanswered
  case old =>
    intro e he hold
    rw [hevidence] at he
    rw [hnow] at hold
    refine .inl ⟨rfl, (fresh_or_refused hanswered).resolve_left ?_⟩
    rintro ⟨fresh, hfresh⟩
    -- a fresh entry is the evidence itself, and not old
    have hrecent := mem_of_youngEntry? he
    have hentry := mem_of_youngEntry? hfresh
    rw [hrecent] at hentry
    cases hentry
    unfold Cache.youngEntry? at hfresh
    have hyoung := of_decide_eq_true (Option.filter_eq_some_iff.mp hfresh).2
    exact absurd hold (Int.not_lt.mpr hyoung)

/-- A call whose attempt was answered ends with that answer, which is evidence from now on. -/
theorem grounded_answered (h : Reachable policy circuit Anything s) (httl : 0 ≤ policy.ttl)
    {before after : List Call} {c : Call} {found : Bool} (hc : s.calls = before ++ c :: after)
    (hasking : c.resting = false)
    (hfinished : (s.cache.settle s.now c.check.user c.check.attempt (.ok found)).decision =
      .finished result) :
    Grounded policy s (s.settle before after c (.ok found)) c.check.user
      (.asking c.number (.ok found)) result := by
  obtain rfl := policy_of_reachable h
  have hreach : Reachable s.cache.policy circuit Anything (s.settle before after c (.ok found)) :=
    .step h (step_of_ends (.asking hc hasking hfinished)) trivial
  have hage : s.now - s.now ≤ 2 * s.cache.policy.ttl := by
    rw [Int.sub_self, Int.two_mul]
    exact Int.add_nonneg httl httl
  have hevidence : evidence? s.cache.policy.ttl (s.settle before after c (.ok found)) c.check.user =
      some ⟨found, s.now⟩ := by
    rw [(remembered_of_reachable hreach).evidence?]
    unfold Cache.youngEntry?
    show Option.filter _ (Cache.entry? (Cache.write _ c.check.user ⟨found, s.now⟩) c.check.user) = _
    rw [lookup_write, if_pos rfl]
    exact Option.filter_eq_some_iff.mpr ⟨rfl, decide_eq_true hage⟩
  cases hfinished
  constructor
  case justified =>
    refine justified_answerBy s.cache rfl "" ?_
    rw [hevidence]
    rfl
  case old =>
    intro e he hold
    rw [hevidence] at he
    cases he
    have hzero : (s.settle before after c (.ok found)).now - s.now = 0 := Int.sub_self s.now
    rw [hzero] at hold
    exact absurd httl (Int.not_le.mpr hold)

/-- A call whose last attempt failed ends with an answer by the evidence. -/
theorem grounded_failed (h : Reachable policy circuit Anything s) {before after : List Call}
    {c : Call} {cause : Failure} (hc : s.calls = before ++ c :: after)
    (hcause : cause.isCancellation = false)
    (hfinished : (s.cache.settle s.now c.check.user c.check.attempt (.error cause)).decision =
      .finished result) :
    Grounded policy s (s.settle before after c (.error cause)) c.check.user
      (.asking c.number (.error cause)) result := by
  obtain rfl := policy_of_reachable h
  have hturn : s.settle before after c (.error cause) =
      s.turn (s.cache.settle s.now c.check.user c.check.attempt (.error cause)).cache
        (before ++ after) (.gaveUp c.number :: servedBy c.check.user
          (s.cache.youngEntry? s.now (2 * s.cache.policy.ttl) c.check.user)) := by
    obtain ⟨answer, -, hturn⟩ | ⟨wait, hagain, -⟩ := settle_cases s before after c (.error cause)
    · rw [hturn]
      unfold Inquiries.endings
      simp only [hcause, Bool.false_eq_true, if_false]
    · rw [hfinished] at hagain
      cases hagain
  have hsilent : ∀ x ∈ .gaveUp c.number :: servedBy c.check.user
      (s.cache.youngEntry? s.now (2 * s.cache.policy.ttl) c.check.user),
      x.tells? c.check.user = none := by
    intro x hx
    rcases List.mem_cons.mp hx with rfl | hx
    · rfl
    · exact silent_servedBy _ _ _ x hx
  have hevidence : evidence? s.cache.policy.ttl (s.settle before after c (.error cause))
      c.check.user = s.cache.youngEntry? s.now (2 * s.cache.policy.ttl) c.check.user := by
    rw [← (remembered_of_reachable h).evidence?, hturn]
    unfold Existence.evidence?
    rw [turn_history, known?_append_of_silent _ _ hsilent]
    rfl
  have htried := tried_of_reachable h c (mem_of_split hc)
  have hlast : c.check.attempt = s.cache.policy.limit :=
    Nat.le_antisymm htried.within (limit_le_of_finished hcause hfinished)
  constructor
  case justified =>
    refine justified_answerBy s.cache rfl "remote check failed" ?_
    rw [hevidence]
    exact finished_settle hcause hfinished
  case old =>
    refine fun e he hold => .inr ⟨c.number, cause, rfl, ?_, fun x hx => ?_⟩
    · intro attempt other
      rw [hturn, turn_history, List.mem_append, or_iff_left, htried.asked, hlast]
      exact fun hmem => (List.mem_cons.mp hmem).elim nofun (not_asked_servedBy _ _ _ _ _)
    · rw [hturn, turn_history] at hx
      rcases List.mem_append.mp hx with hx | hx
      · exact fun hsuccess =>
          ((chronicled_of_reachable h).active c (mem_of_split hc)).running x hx (.inl hsuccess)
      · rcases List.mem_cons.mp hx with rfl | hx
        · nofun
        · exact fun hsuccess => not_ends_servedBy _ _ c.number x hx (.inl hsuccess)

/-- Every answer is justified.  However calls, attempts and evictions come between each other, a
call that is cancelled ends with its cancellation and with no answer; every other call ends with the
answer that the evidence about its user gives at that time, and evidence that is too old to answer
by itself is used only where the breaker refused the call or every remote attempt of it failed. -/
theorem answer_justified (h : Reachable policy circuit Anything s) (httl : 0 ≤ policy.ttl)
    (hends : Ends s s' user manner result) :
    (∀ u u', Step u u' → Dated u u') ∧ s'.now = s.now ∧
    (∀ cause, manner.cancellation? = some cause →
      cause.isCancellation = true ∧ result = .error cause) ∧
    (manner.cancellation? = none → Grounded policy s s' user manner result) := by
  refine ⟨fun u u' => dated_of_step, now_of_ends hends, ?_⟩
  cases hends with
  | atOnce hanswered => exact ⟨nofun, fun _ => grounded_atOnce h httl hanswered⟩
  | @asking before after c outcome _ hc hasking hfinished =>
    cases outcome with
    | ok found => exact ⟨nofun, fun _ => grounded_answered h httl hc hasking hfinished⟩
    | error e =>
      unfold Manner.cancellation?
      by_cases he : e.isCancellation = true
      · simp only [he, if_true]
        refine ⟨fun cause hcause => ?_, nofun⟩
        cases hcause
        unfold Cache.settle at hfinished
        simp only [he, if_true] at hfinished
        cases hfinished
        exact ⟨he, rfl⟩
      · rw [Bool.not_eq_true] at he
        simp only [he, Bool.false_eq_true, if_false]
        exact ⟨nofun, fun _ => grounded_failed h hc he hfinished⟩
  | @waiting before after c cause _ hc hresting hcause hfinished =>
    refine ⟨fun cause' hcause' => ?_, nofun⟩
    cases hcause'
    unfold Cache.abandon Cache.settle at hfinished
    simp only [hcause, if_true] at hfinished
    cases hfinished
    exact ⟨hcause, rfl⟩

end ends

/-! ## An old answer -/

/-- Whether a call ends with a decision. -/
def hasEnded : Settled → Bool
  | .finished _ => true
  | .again _ => false

/-- A decision that ends a call has a result. -/
theorem finished_of_hasEnded {decision : Settled} (h : hasEnded decision = true) :
    ∃ result, decision = .finished result := by
  cases decision with
  | finished result => exact ⟨result, rfl⟩
  | again wait => cases h

/-- A user is found, and asked about again when that does not answer by itself any more. -/
def staleRun : List Move :=
  [.consult 1, .settle 0 (.ok true), .pass (.ofSeconds 400), .consult 1]

/-- The remote side cannot be reached then, and the old answer is used. -/
theorem answer_justified_of_staleRun :
    ∃ s s', Reachable askingOnce tripsAtOnce Anything s ∧
      Ends s s' 1 (.asking 1 (.error .timedOut)) (.ok ()) ∧
      evidence? askingOnce.ttl s' 1 = some ⟨true, 0⟩ ∧ askingOnce.ttl < s'.now - 0 ∧
      Exhausted askingOnce s'.history 1 1 := by
  have hplays : (plays Anything (start askingOnce tripsAtOnce 0) staleRun).map (fun s =>
      (s.now, s.calls.map fun c => (c.number, c.check, c.resting))) =
      some (Span.ofSeconds 400, [(1, ⟨1, 1⟩, false)]) := by
    decide +kernel
  obtain ⟨s, hs, hseen⟩ := Option.map_eq_some_iff.mp hplays
  obtain ⟨hnow, hcalls⟩ := Prod.mk.inj hseen
  obtain ⟨c, hc, hcall⟩ := List.map_eq_singleton_iff.mp hcalls
  simp only [Prod.mk.injEq] at hcall
  obtain ⟨hnumber, hcheck, hasking⟩ := hcall
  have hplays : (plays Anything (start askingOnce tripsAtOnce 0) staleRun).map (fun s =>
      s.calls.map fun c =>
        (hasEnded (s.cache.settle s.now c.check.user c.check.attempt (.error .timedOut)).decision,
          evidence? askingOnce.ttl (s.settle [] [] c (.error .timedOut)) 1)) =
      some [(true, some ⟨true, 0⟩)] := by
    decide +kernel
  rw [hs, Option.map_some, hc, List.map_singleton] at hplays
  simp only [Option.some.injEq, List.cons.injEq, Prod.mk.injEq, and_true] at hplays
  obtain ⟨hended, hevidence⟩ := hplays
  obtain ⟨result, hresult⟩ := finished_of_hasEnded hended
  have hreach := reachable_of_plays (.start 0) hs
  have hsplit : s.calls = [] ++ c :: [] := hc
  have hends := Ends.asking hsplit hasking hresult
  obtain ⟨-, hsame, -, hanswer⟩ := answer_justified hreach (by decide) hends
  obtain ⟨hjustified, hold⟩ := hanswer rfl
  have huser : c.check.user = 1 := by rw [hcheck]
  rw [huser] at hjustified hold hends
  have hlate : askingOnce.ttl < (s.settle [] [] c (.error .timedOut)).now - 0 := by
    rw [hsame, hnow]
    decide +kernel
  -- the evidence says that the user exists
  obtain rfl := hjustified.present.mpr (.inl ⟨_, hevidence, rfl⟩)
  obtain ⟨hatOnce, -⟩ | ⟨call, cause, hmanner, hexhausted⟩ := hold _ hevidence hlate
  · cases hatOnce
  · cases hmanner
    rw [hnumber] at hends hexhausted
    exact ⟨s, _, hreach, hends, hevidence, hlate, hexhausted⟩

end Existence

end EventRelay
