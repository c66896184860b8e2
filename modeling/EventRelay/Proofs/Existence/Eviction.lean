import EventRelay.Proofs.Existence.Play

/-!
# Answers after an eviction

A call of the existence cache writes its entry when the remote side has answered, whatever happened
in the meantime.  So what an eviction forbids is that an answer is served which was there before it:
every answer from an entry was learned after the last eviction of its user.  An answer that was
asked for before may well be learned after, and is then served.

* `Sourced`: an entry is what a remote check has learned, and no eviction of the user came after.
* `chronicled_of_reachable`: every entry is, and every answer served was.
* `served_after_eviction`: the main statement; `served_from_check_begun_before`: a run in which the
  answer of a check that was under way at an eviction is served after it.
-/

namespace EventRelay

namespace Existence

/-- Whether an eviction drops the entry of a user. -/
def Covers (who : Option Int) (user : Int) : Prop := who = none ∨ who = some user

/-- A remote check about the user was begun and answered before this place of the history, its
answer is this entry, and no eviction of the user came between the answer and the place. -/
def Sourced (history : List Incident) (user : Int) (entry : CacheEntry) (k : Nat) : Prop :=
  ∃ call attempt i m, history[i]? = some (.asked call attempt user) ∧
    history[m]? = some (.learned call attempt user entry) ∧ i < m ∧ m < k ∧
    ∀ j who, m < j → j < k → history[j]? = some (.evicted who) → ¬ Covers who user

/-- A check about the user was under way at this place of the history: a call had begun to ask, and
had not ended. -/
def UnderWay (history : List Incident) (j : Nat) (user : Int) : Prop :=
  ∃ call attempt i, i < j ∧ history[i]? = some (.asked call attempt user) ∧
    ∀ e x, e < j → history[e]? = some x → ¬ x.Ends call

/-! ## Histories that get longer -/

section histories

variable {history : List Incident} {user : Int} {entry : CacheEntry} {k : Nat}

/-- What comes later does not change what was before a place. -/
theorem Sourced.extend (h : Sourced history user entry k) (hk : k ≤ history.length)
    (more : List Incident) : Sourced (history ++ more) user entry k := by
  obtain ⟨call, attempt, i, m, hasked, hlearned, him, hmk, hkept⟩ := h
  refine ⟨call, attempt, i, m, getElem?_append_of_some hasked more,
    getElem?_append_of_some hlearned more, him, hmk, fun j who hmj hjk hj => ?_⟩
  rw [List.getElem?_append_left (by omega)] at hj
  exact hkept j who hmj hjk hj

/-- An entry stays sourced when something else than its eviction comes next. -/
theorem Sourced.next (h : Sourced history user entry history.length) {x : Incident}
    (hx : ∀ who, x = .evicted who → ¬ Covers who user) :
    Sourced (history ++ [x]) user entry (history.length + 1) := by
  obtain ⟨call, attempt, i, m, hasked, hlearned, him, hmk, hkept⟩ :=
    h.extend (Nat.le_refl _) [x]
  refine ⟨call, attempt, i, m, hasked, hlearned, him, by omega, fun j who hmj hjk hj => ?_⟩
  rcases Nat.lt_succ_iff_lt_or_eq.mp hjk with hlt | rfl
  · exact hkept j who hmj hlt hj
  · rw [List.getElem?_concat_length] at hj
    exact hx who (Option.some.inj hj)

end histories

/-! ## What a history tells -/

/-- The history of a run is sound: it is about calls that were let through, an ended call does
nothing more, and what is served was learned. -/
structure Sound (history : List Incident) (count : Nat) : Prop where
  /-- Calls have been given their numbers. -/
  known : ∀ x ∈ history, ∀ n, x.call? = some n → n < count
  /-- After its end a call does nothing. -/
  final : history.Pairwise fun x y => ∀ n, x.Ends n → y.call? ≠ some n
  /-- What was served had been learned. -/
  served : ∀ k user entry, history[k]? = some (.served user entry) → Sourced history user entry k

/-- Every entry is sourced. -/
def Backed (c : Cache) (history : List Incident) : Prop :=
  ∀ user entry, c.entry? user = some entry → Sourced history user entry history.length

/-- A call under way has asked, unless it waits, and has not ended. -/
structure Active (history : List Incident) (c : Call) : Prop where
  /-- The attempt that it makes has begun. -/
  asked : c.resting = false → .asked c.number c.check.attempt c.check.user ∈ history
  /-- It has not ended. -/
  running : ∀ x ∈ history, ¬ x.Ends c.number

section records

variable {history : List Incident} {count : Nat}

/-- A history stays sound when something is noted of a call that has not ended. -/
theorem Sound.note (h : Sound history count) {x : Incident} {count' : Nat} (hcount : count ≤ count')
    (hknown : ∀ n, x.call? = some n → n < count')
    (hrunning : ∀ n, x.call? = some n → ∀ y ∈ history, ¬ y.Ends n)
    (hserved : ∀ user entry, x = .served user entry →
      Sourced history user entry history.length) : Sound (history ++ [x]) count' where
  known y hy n hn := by
    rcases List.mem_append.mp hy with hy | hy
    · exact Nat.lt_of_lt_of_le (h.known y hy n hn) hcount
    · rw [List.mem_singleton.mp hy] at hn
      exact hknown n hn
  final := by
    refine List.pairwise_append.mpr ⟨h.final, List.pairwise_singleton _ _, fun y hy z hz n hn => ?_⟩
    rw [List.mem_singleton.mp hz]
    exact fun hx => hrunning n hx y hy hn
  served k user entry hk := by
    by_cases hlt : k < history.length
    · rw [List.getElem?_append_left hlt] at hk
      exact (h.served k user entry hk).extend (Nat.le_of_lt hlt) [x]
    · obtain ⟨hle, -⟩ := List.getElem?_eq_some_iff.mp hk
      rw [List.length_append, List.length_singleton] at hle
      have hlast : k = history.length := by omega
      rw [hlast, List.getElem?_concat_length] at hk
      rw [hlast]
      exact (hserved user entry (Option.some.inj hk)).extend (Nat.le_refl _) [x]

/-- Entries stay sourced when no eviction is noted. -/
theorem Backed.note {c : Cache} (h : Backed c history) {x : Incident}
    (hx : ∀ who, x ≠ .evicted who) : Backed c (history ++ [x]) := by
  intro user entry hentry
  rw [List.length_append, List.length_singleton]
  exact (h user entry hentry).next fun who hwho => absurd hwho (hx who)

/-- A call stays active when its end is not noted. -/
theorem Active.note {c : Call} (h : Active history c) {x : Incident} (hx : ¬ x.Ends c.number) :
    Active (history ++ [x]) c where
  asked hasking := List.mem_append_left _ (h.asked hasking)
  running y hy := by
    rcases List.mem_append.mp hy with hy | hy
    · exact h.running y hy
    · rw [List.mem_singleton.mp hy]
      exact hx

/-- A call that begins an attempt is active. -/
theorem Active.begun {c : Call} {x : Incident} (hrunning : ∀ y ∈ history, ¬ y.Ends c.number)
    (hx : x = .asked c.number c.check.attempt c.check.user) : Active (history ++ [x]) c where
  asked _ := by
    rw [← hx]
    exact List.mem_append_right _ List.mem_cons_self
  running y hy := by
    rcases List.mem_append.mp hy with hy | hy
    · exact hrunning y hy
    · rw [List.mem_singleton.mp hy, hx]
      exact ends_asked

/-- An answer that is served from an entry was learned. -/
theorem Sound.serve (h : Sound history count) {user : Int} {basis? : Option CacheEntry}
    (hsourced : ∀ e, basis? = some e → Sourced history user e history.length) :
    Sound (history ++ servedBy user basis?) count := by
  cases basis? with
  | none =>
    rw [servedBy, Option.map_none, Option.toList_none, List.append_nil]
    exact h
  | some e =>
    refine h.note (Nat.le_refl _) nofun nofun fun user' entry heq => ?_
    cases heq
    exact hsourced e rfl

/-- Entries stay sourced when one of them answers. -/
theorem Backed.serve {c : Cache} (h : Backed c history) (user : Int)
    (basis? : Option CacheEntry) : Backed c (history ++ servedBy user basis?) := by
  cases basis? with
  | none =>
    rw [servedBy, Option.map_none, Option.toList_none, List.append_nil]
    exact h
  | some e => exact h.note fun who => nofun

/-- A call stays active when an entry answers. -/
theorem Active.serve {c : Call} (h : Active history c) (user : Int)
    (basis? : Option CacheEntry) : Active (history ++ servedBy user basis?) c := by
  cases basis? with
  | none =>
    rw [servedBy, Option.map_none, Option.toList_none, List.append_nil]
    exact h
  | some e => exact h.note ends_served

end records

/-! ## The invariant -/

/-- The history, the entries and the calls of a state go together. -/
structure Chronicled (s : Inquiries) : Prop where
  /-- The history is sound. -/
  sound : Sound s.history s.count
  /-- Every entry is sourced. -/
  backed : Backed s.cache s.history
  /-- The calls are active. -/
  active : ∀ c ∈ s.calls, Active s.history c

variable {s s' : Inquiries}

/-- A call that succeeds leaves an entry with its answer. -/
theorem backed_write {c : Call} (hactive : Active s.history c) (hasking : c.resting = false)
    (h : Backed s.cache s.history) (breaker : Breaker Instant) (entry : CacheEntry) :
    Backed ({ s.cache with breaker }.write c.check.user entry)
      (s.history ++ [.learned c.number c.check.attempt c.check.user entry]) := by
  intro user e he
  rw [List.length_append, List.length_singleton]
  rw [lookup_write] at he
  by_cases hu : user = c.check.user
  · rw [if_pos hu] at he
    cases he
    obtain ⟨i, hi⟩ := List.mem_iff_getElem?.mp (hactive.asked hasking)
    obtain ⟨hlt, -⟩ := List.getElem?_eq_some_iff.mp hi
    rw [hu]
    refine ⟨c.number, c.check.attempt, i, s.history.length, getElem?_append_of_some hi _,
      List.getElem?_concat_length, hlt, Nat.lt_succ_self _, fun j who hmj hjk => ?_⟩
    omega
  · rw [if_neg hu] at he
    exact (h user e he).next fun who hwho => nomatch hwho

/-- What is left after an eviction is of other users. -/
theorem backed_evict (h : Backed s.cache s.history) (who : Option Int) :
    Backed (s.evict who).cache (s.history ++ [.evicted who]) := by
  intro user e he
  rw [List.length_append, List.length_singleton]
  cases who with
  | none => cases he
  | some u =>
    have he' : Cache.entry? (s.cache.evict u) user = some e := he
    rw [lookup_evict] at he'
    by_cases hu : user = u
    · rw [if_pos hu] at he'
      cases he'
    · rw [if_neg hu] at he'
      refine (h user e he').next fun who hwho => ?_
      cases hwho
      rintro (hall | hone)
      · cases hall
      · exact hu (Option.some.inj hone).symm

/-- What a call under way does next may be noted down. -/
theorem Chronicled.tell (h : Chronicled s) (hnumbered : Numbered s) {c : Call} (hc : c ∈ s.calls)
    {x : Incident} (hx : x.call? = some c.number) : Sound (s.history ++ [x]) s.count := by
  refine h.sound.note (Nat.le_refl _) ?_ ?_ ?_
  · intro n hn
    rw [hx] at hn
    cases hn
    exact hnumbered.given c hc
  · intro n hn
    rw [hx] at hn
    cases hn
    exact (h.active c hc).running
  · intro user entry heq
    rw [heq] at hx
    cases hx

/-- After every step history, entries and calls go together. -/
theorem chronicled_step (hnumbered : Numbered s) (h : Chronicled s) (hstep : Step s s') :
    Chronicled s' := by
  cases effect_of_step hstep with
  | answered user basis? hbasis rejected hs' =>
    rw [hs']
    exact ⟨h.sound.serve fun e he => h.backed user e (hbasis e he), h.backed.serve user basis?,
      fun c hc => (h.active c hc).serve user basis?⟩
  | admitted user breaker hallow hs' =>
    rw [hs']
    -- nothing was noted down about a number that has not been given out
    have hfresh : ∀ y ∈ s.history, ¬ y.Ends s.count := by
      intro y hy hends
      exact Nat.lt_irrefl _ (h.sound.known y hy s.count hends.call?)
    refine ⟨h.sound.note (Nat.le_succ _) ?_ ?_ nofun, h.backed.note fun who => nofun,
      fun c hc => ?_⟩
    · intro n hn
      cases hn
      exact Nat.lt_succ_self _
    · intro n hn
      cases hn
      exact hfresh
    · rcases List.mem_append.mp hc with hc | hc
      · exact (h.active c hc).note ends_asked
      · rw [List.mem_singleton.mp hc]
        exact Active.begun hfresh rfl
  | rested before after c hc hs' =>
    rw [hs']
    have hsame : (s.turn s.cache (before ++ { c with resting := true } :: after) []).history =
        s.history := List.append_nil _
    refine ⟨?_, ?_, fun d hd => ?_⟩
    · rw [hsame]
      exact h.sound
    · rw [hsame]
      exact h.backed
    · rw [hsame]
      rcases mem_of_mem_replace hc hd with hd | rfl
      · exact h.active d hd
      · exact ⟨nofun, (h.active c (mem_of_split hc)).running⟩
  | succeeded before after c hc hasking found hs' =>
    rw [hs']
    have hmem := mem_of_split hc
    refine ⟨h.tell hnumbered hmem rfl, backed_write (h.active c hmem) hasking h.backed _ _,
      fun d hd => (h.active d (mem_of_mem_remove hc hd)).note fun hends => ?_⟩
    exact hnumbered.ne_of_other hc hd (ends_learned.mp hends).symm
  | failed before after c hc basis? hbasis hs' =>
    rw [hs']
    have hsound := h.tell hnumbered (mem_of_split hc) (x := .gaveUp c.number) rfl
    have hbacked : Backed s.cache (s.history ++ [.gaveUp c.number]) :=
      h.backed.note fun who => nofun
    have hsplit : s.history ++ .gaveUp c.number :: servedBy c.check.user basis? =
        (s.history ++ [.gaveUp c.number]) ++ servedBy c.check.user basis? := by
      rw [List.append_assoc, List.singleton_append]
    refine ⟨?_, ?_, fun d hd => ?_⟩
    · rw [turn_history, hsplit]
      exact hsound.serve fun e he => hbacked c.check.user e (hbasis e he)
    · rw [turn_history, hsplit]
      exact hbacked.serve c.check.user basis?
    · rw [turn_history, hsplit]
      refine ((h.active d (mem_of_mem_remove hc hd)).note fun hends => ?_).serve c.check.user basis?
      exact hnumbered.ne_of_other hc hd (ends_gaveUp.mp hends).symm
  | resumed before after c hc hs' =>
    rw [hs']
    have hmem := mem_of_split hc
    refine ⟨h.tell hnumbered hmem rfl, h.backed.note fun who => nofun, fun d hd => ?_⟩
    rcases mem_of_mem_replace hc hd with hd | rfl
    · exact (h.active d hd).note ends_asked
    · exact Active.begun (h.active c hmem).running rfl
  | evicted who hs' =>
    rw [hs']
    have hbacked := backed_evict h.backed who
    obtain ⟨entries, hevict⟩ := evict_eq_turn s who
    rw [hevict] at hbacked ⊢
    exact ⟨h.sound.note (Nat.le_refl _) nofun nofun nofun, hbacked,
      fun c hc => (h.active c hc).note ends_evicted⟩
  | waited later hle hs' =>
    rw [hs']
    exact ⟨h.sound, h.backed, h.active⟩

variable {policy : CachePolicy} {circuit : BreakerConfig Span}
  {allowed : Inquiries → Inquiries → Prop}

/-- In every run history, entries and calls go together. -/
theorem chronicled_of_reachable (h : Reachable policy circuit allowed s) : Chronicled s := by
  induction h with
  | start now =>
    refine ⟨⟨fun x hx => absurd hx List.not_mem_nil, List.Pairwise.nil, fun k user entry hk => ?_⟩,
      nofun, fun c hc => absurd hc List.not_mem_nil⟩
    cases hk
  | step hreach hstep _ ih => exact chronicled_step (numbered_of_reachable hreach) ih hstep

/-! ## Evictions -/

/-- After an eviction that covers a user, every answer about the user that is served from an entry
is what a remote check has answered after the eviction; and unless a check about the user was under
way at the eviction, its attempt that was answered began after it too. -/
theorem served_after_eviction (h : Reachable policy circuit Anything s) {j k : Nat}
    {who : Option Int} {user : Int} {entry : CacheEntry}
    (hevicted : s.history[j]? = some (.evicted who)) (hcovers : Covers who user)
    (hserved : s.history[k]? = some (.served user entry)) (hjk : j < k) :
    ∃ call attempt i m, s.history[i]? = some (.asked call attempt user) ∧
      s.history[m]? = some (.learned call attempt user entry) ∧ i < m ∧ m < k ∧ j < m ∧
      (j < i ∨ UnderWay s.history j user) := by
  have hsound := (chronicled_of_reachable h).sound
  obtain ⟨call, attempt, i, m, hasked, hlearned, him, hmk, hkept⟩ :=
    hsound.served k user entry hserved
  have hjm : j < m := by
    rcases Nat.lt_trichotomy j m with hlt | heq | hgt
    · exact hlt
    · rw [heq, hlearned] at hevicted
      cases hevicted
    · exact absurd hcovers (hkept j who hgt hjk hevicted)
  refine ⟨call, attempt, i, m, hasked, hlearned, him, hmk, hjm, ?_⟩
  rcases Nat.lt_trichotomy j i with hlt | heq | hgt
  · exact .inl hlt
  · rw [heq, hasked] at hevicted
    cases hevicted
  · -- the call was under way itself, since it ended later
    refine .inr ⟨call, attempt, i, hgt, hasked, fun e x hej hx hends => ?_⟩
    obtain ⟨he, hxe⟩ := List.getElem?_eq_some_iff.mp hx
    obtain ⟨hm, hxm⟩ := List.getElem?_eq_some_iff.mp hlearned
    have hsilent := List.pairwise_iff_getElem.mp hsound.final e m he hm (by omega) call
    rw [hxe, hxm] at hsilent
    exact hsilent hends rfl

/-! ## Two runs -/

/-- A user is found, the entry is dropped, and the user is not found any more. -/
def deletedRun : List Move :=
  [.consult 1, .settle 0 (.ok true), .pass (.ofSeconds 10), .evict (some 1), .consult 1,
    .settle 0 (.ok false), .consult 1]

/-- When the user is asked about after the eviction. -/
def secondCheck : Instant := Span.ofSeconds 10

/-- The answer served in this run is the one asked for after the eviction. -/
theorem served_after_eviction_of_deletedRun :
    ∃ s, Reachable askingOnce tripsAtOnce Anything s ∧
      s.history = [.asked 0 1 1, .learned 0 1 1 ⟨true, 0⟩, .evicted (some 1), .asked 1 1 1,
        .learned 1 1 1 ⟨false, secondCheck⟩, .served 1 ⟨false, secondCheck⟩] ∧
      ∃ call attempt i m, s.history[i]? = some (.asked call attempt 1) ∧
        s.history[m]? = some (.learned call attempt 1 ⟨false, secondCheck⟩) ∧ i < m ∧ m < 5 ∧
        2 < m ∧ (2 < i ∨ UnderWay s.history 2 1) := by
  have hplays : (plays Anything (start askingOnce tripsAtOnce 0) deletedRun).map (·.history) =
      some [.asked 0 1 1, .learned 0 1 1 ⟨true, 0⟩, .evicted (some 1), .asked 1 1 1,
        .learned 1 1 1 ⟨false, secondCheck⟩, .served 1 ⟨false, secondCheck⟩] := by
    decide +kernel
  obtain ⟨s, hs, hhistory⟩ := Option.map_eq_some_iff.mp hplays
  have hreach := reachable_of_plays (.start 0) hs
  refine ⟨s, hreach, hhistory, ?_⟩
  have hevicted : s.history[2]? = some (.evicted (some 1)) := by
    rw [hhistory]
    rfl
  have hserved : s.history[5]? = some (.served 1 ⟨false, secondCheck⟩) := by
    rw [hhistory]
    rfl
  exact served_after_eviction hreach hevicted (.inr rfl) hserved (by decide)

/-- The entry of a user is dropped while the remote side is being asked about the user. -/
def overlappingRun : List Move :=
  [.consult 1, .evict (some 1), .settle 0 (.ok true), .consult 1]

/-- An answer that was asked for before an eviction is served after it. -/
theorem served_from_check_begun_before :
    ∃ s, Reachable askingOnce tripsAtOnce Anything s ∧
      s.history = [.asked 0 1 1, .evicted (some 1), .learned 0 1 1 ⟨true, 0⟩,
        .served 1 ⟨true, 0⟩] ∧
      ¬ ∀ (j k : Nat) (who : Option Int) (user : Int) (entry : CacheEntry),
        s.history[j]? = some (.evicted who) → Covers who user →
        s.history[k]? = some (.served user entry) → j < k →
        ∃ call attempt i m, s.history[i]? = some (.asked call attempt user) ∧
          s.history[m]? = some (.learned call attempt user entry) ∧ j < i ∧ i < m ∧ m < k := by
  have hplays : (plays Anything (start askingOnce tripsAtOnce 0) overlappingRun).map (·.history) =
      some [.asked 0 1 1, .evicted (some 1), .learned 0 1 1 ⟨true, 0⟩, .served 1 ⟨true, 0⟩] := by
    decide +kernel
  obtain ⟨s, hs, hhistory⟩ := Option.map_eq_some_iff.mp hplays
  refine ⟨s, reachable_of_plays (.start 0) hs, hhistory, fun hclaim => ?_⟩
  have hevicted : s.history[1]? = some (.evicted (some 1)) := by
    rw [hhistory]
    rfl
  have hserved : s.history[3]? = some (.served 1 ⟨true, 0⟩) := by
    rw [hhistory]
    rfl
  obtain ⟨call, attempt, i, m, -, -, hji, him, hmk⟩ :=
    hclaim 1 3 (some 1) 1 ⟨true, 0⟩ hevicted (.inr rfl) hserved (by decide)
  omega

end Existence

end EventRelay
