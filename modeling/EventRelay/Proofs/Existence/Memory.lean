import EventRelay.Proofs.Existence.Eviction
import EventRelay.Proofs.Existence.Outcomes
import Mathlib.Data.List.Induction

/-!
# What is known of a user

The history of a run tells what is known of a user, without a look at the cache: the result of the
last remote check about the user, unless an eviction of the user came after it.  Every entry of the
cache is exactly that, whatever came between the steps of a call.

* `known?`, `evidence?`: what a history tells of a user, and what of it counts at a time;
  `known?_eq_some_iff` says which check that is.
* `dated_of_step`: what is noted down as learned carries the time at which it was.
* `remembered_of_reachable`: the entries of a cache are what its history tells.
-/

namespace EventRelay

namespace Existence

variable {s s' : Inquiries}

/-! ## What a history tells of a user -/

instance (who : Option Int) (user : Int) : Decidable (Covers who user) :=
  inferInstanceAs (Decidable (who = none ∨ who = some user))

/-- What an incident tells of a user, if anything: what was learned, or that nothing is known any
more. -/
def Incident.tells? (user : Int) : Incident → Option (Option CacheEntry)
  | .learned _ _ other entry => if other = user then some (some entry) else none
  | .evicted who => if Covers who user then some none else none
  | _ => none

/-- What is known of a user after a history: the result of the last check, unless an eviction of the
user came after it. -/
def known? (history : List Incident) (user : Int) : Option CacheEntry :=
  (history.reverse.findSome? (Incident.tells? user)).join

/-- What counts as evidence about a user: what is known, if it is no older than twice the time for
which an entry answers by itself. -/
def evidence? (ttl : Span) (s : Inquiries) (user : Int) : Option CacheEntry :=
  (known? s.history user).filter fun e => s.now - e.writtenAt ≤ 2 * ttl

section telling

variable (history : List Incident) (user : Int)

/-- What is known of a user changes where the last incident tells of them. -/
theorem known?_concat (x : Incident) :
    known? (history ++ [x]) user = (x.tells? user).getD (known? history user) := by
  unfold known?
  rw [List.reverse_append, List.reverse_singleton, List.singleton_append, List.findSome?_cons]
  cases x.tells? user with
  | none => rfl
  | some told => rfl

/-- What tells nothing of a user changes nothing. -/
theorem known?_append_of_silent {incidents : List Incident}
    (h : ∀ x ∈ incidents, x.tells? user = none) :
    known? (history ++ incidents) user = known? history user := by
  unfold known?
  have hsilent : incidents.reverse.findSome? (Incident.tells? user) = none :=
    List.findSome?_eq_none_iff.mpr fun x hx => h x (List.mem_reverse.mp hx)
  rw [List.reverse_append, List.findSome?_append, hsilent, Option.none_or]

/-- An answer from an entry tells nothing new. -/
theorem silent_servedBy (other : Int) (basis? : Option CacheEntry) :
    ∀ x ∈ servedBy other basis?, x.tells? user = none := by
  cases basis? with
  | none => exact nofun
  | some e =>
    intro x hx
    rw [List.mem_singleton.mp hx]
    rfl

/-- What tells nothing of a user is neither a check about the user nor an eviction of the user. -/
theorem tells?_eq_none_iff (x : Incident) :
    x.tells? user = none ↔
      (∀ call attempt entry, x ≠ .learned call attempt user entry) ∧
        ∀ who, x = .evicted who → ¬ Covers who user := by
  cases x with
  | learned call attempt other entry =>
    by_cases hother : other = user
    · simp [Incident.tells?, hother]
    · simp [Incident.tells?, hother]
  | evicted who =>
    by_cases hcovers : Covers who user
    · simp [Incident.tells?, hcovers]
    · simp [Incident.tells?, hcovers]
  | asked call attempt other => simp [Incident.tells?]
  | gaveUp call => simp [Incident.tells?]
  | served other entry => simp [Incident.tells?]

/-- Only a check about the user tells a result. -/
theorem learned_of_tells? {user : Int} {x : Incident} {entry : CacheEntry}
    (h : x.tells? user = some (some entry)) :
    ∃ call attempt, x = .learned call attempt user entry := by
  cases x with
  | learned call attempt other e =>
    by_cases hother : other = user
    · simp only [Incident.tells?, hother, if_true, Option.some.injEq] at h
      exact ⟨call, attempt, by rw [hother, h]⟩
    · simp [Incident.tells?, hother] at h
  | evicted who => simp [Incident.tells?] at h
  | asked call attempt other => cases h
  | gaveUp call => cases h
  | served other e => cases h

/-- What is known is the result of the check after which no check about the user was completed and
no eviction covered the user. -/
theorem known?_eq_some_iff (entry : CacheEntry) :
    known? history user = some entry ↔
      ∃ before call attempt after,
        history = before ++ .learned call attempt user entry :: after ∧
          ∀ x ∈ after, (∀ n k e, x ≠ .learned n k user e) ∧
            ∀ who, x = .evicted who → ¬ Covers who user := by
  simp only [← tells?_eq_none_iff]
  constructor
  · induction history using List.reverseRecOn with
    | nil => nofun
    | append_singleton history x ih =>
      rw [known?_concat]
      rcases htold : x.tells? user with _ | told
      · intro hknown
        obtain ⟨before, call, attempt, after, hsplit, hsilent⟩ := ih hknown
        refine ⟨before, call, attempt, after ++ [x], ?_, fun y hy => ?_⟩
        · rw [hsplit, List.append_assoc, List.cons_append]
        · rcases List.mem_append.mp hy with hy | hy
          · exact hsilent y hy
          · rw [List.mem_singleton.mp hy, htold]
      · rintro (rfl : told = some entry)
        obtain ⟨call, attempt, rfl⟩ := learned_of_tells? htold
        exact ⟨history, call, attempt, [], rfl, nofun⟩
  · rintro ⟨before, call, attempt, after, rfl, hsilent⟩
    have hsplit : before ++ .learned call attempt user entry :: after =
        (before ++ [.learned call attempt user entry]) ++ after := by
      rw [List.append_assoc, List.singleton_append]
    rw [hsplit, known?_append_of_silent _ _ hsilent, known?_concat]
    simp [Incident.tells?]

end telling

/-! ## Entries are what the history tells -/

/-- The entries of a cache are what its history tells. -/
def Remembered (s : Inquiries) : Prop := ∀ user, s.cache.entry? user = known? s.history user

/-- Where the entries stay as they are and nothing is told, they are what the history tells. -/
theorem Remembered.same (h : Remembered s) {cache : Cache} (calls : List Call)
    {incidents : List Incident} (hentries : cache.entries = s.cache.entries)
    (hsilent : ∀ user, ∀ x ∈ incidents, x.tells? user = none) :
    Remembered (s.turn cache calls incidents) := by
  intro user
  rw [turn_history, known?_append_of_silent _ _ (hsilent user), ← h user, turn_cache]
  unfold Cache.entry?
  rw [hentries]

/-- After every step the entries are what the history tells. -/
theorem remembered_step (h : Remembered s) (hstep : Step s s') : Remembered s' := by
  cases effect_of_step hstep with
  | answered user basis? hbasis rejected hs' =>
    rw [hs']
    exact h.same _ rfl fun other => silent_servedBy other user basis?
  | admitted user breaker hallow hs' =>
    rw [hs']
    refine h.same s.calls rfl fun other x hx => ?_
    rw [List.mem_singleton.mp hx]
    rfl
  | rested before after c hc hs' =>
    rw [hs']
    exact h.same _ rfl nofun
  | succeeded before after c hc hasking found hs' =>
    rw [hs']
    intro user
    rw [turn_cache, turn_history, lookup_write, known?_concat]
    by_cases huser : user = c.check.user
    · simp [Incident.tells?, huser]
    · rw [if_neg huser]
      have hother : c.check.user ≠ user := Ne.symm huser
      simp only [Incident.tells?, hother, if_false, Option.getD_none]
      exact h user
  | failed before after c hc basis? hbasis hs' =>
    rw [hs']
    refine h.same _ rfl fun user x hx => ?_
    rcases List.mem_cons.mp hx with rfl | hx
    · rfl
    · exact silent_servedBy user c.check.user basis? x hx
  | resumed before after c hc hs' =>
    rw [hs']
    refine h.same _ rfl fun user x hx => ?_
    rw [List.mem_singleton.mp hx]
    rfl
  | evicted who hs' =>
    rw [hs']
    intro user
    cases who with
    | none =>
      show none = known? (s.history ++ [.evicted none]) user
      rw [known?_concat]
      simp [Incident.tells?, Covers]
    | some other =>
      show Cache.entry? (s.cache.evict other) user =
        known? (s.history ++ [.evicted (some other)]) user
      rw [lookup_evict, known?_concat]
      by_cases huser : user = other
      · simp [Incident.tells?, Covers, huser]
      · have hcovers : ¬ Covers (some other) user := by
          rintro (hall | hone)
          · cases hall
          · exact huser (Option.some.inj hone).symm
        rw [if_neg huser]
        simp only [Incident.tells?, hcovers, if_false, Option.getD_none]
        exact h user
  | waited later hle hs' =>
    rw [hs']
    exact h

/-- What a step notes down as learned is dated with the time at which the check was completed. -/
def Dated (s s' : Inquiries) : Prop :=
  ∀ call attempt user entry, .learned call attempt user entry ∈ news s s' → entry.writtenAt = s.now

/-- What a step notes down as learned has the time of the step. -/
theorem dated_of_step (hstep : Step s s') : Dated s s' := by
  intro call attempt user entry hlearned
  have hnone : ∀ other basis?, .learned call attempt user entry ∉ servedBy other basis? := by
    intro other basis? hmem
    have hsilent := silent_servedBy user other basis? _ hmem
    simp [Incident.tells?] at hsilent
  cases effect_of_step hstep with
  | answered other basis? hbasis rejected hs' =>
    rw [hs', news_turn] at hlearned
    exact absurd hlearned (hnone other basis?)
  | admitted other breaker hallow hs' =>
    rw [hs', news_of_history rfl] at hlearned
    cases List.mem_singleton.mp hlearned
  | rested before after c hc hs' =>
    rw [hs', news_turn] at hlearned
    cases hlearned
  | succeeded before after c hc hasking found hs' =>
    rw [hs', news_turn] at hlearned
    cases List.mem_singleton.mp hlearned
    rfl
  | failed before after c hc basis? hbasis hs' =>
    rw [hs', news_turn] at hlearned
    rcases List.mem_cons.mp hlearned with heq | hmem
    · cases heq
    · exact absurd hmem (hnone c.check.user basis?)
  | resumed before after c hc hs' =>
    rw [hs', Inquiries.resume, news_turn] at hlearned
    cases List.mem_singleton.mp hlearned
  | evicted who hs' =>
    obtain ⟨entries, hevict⟩ := evict_eq_turn s who
    rw [hs', hevict, news_turn] at hlearned
    cases List.mem_singleton.mp hlearned
  | waited later hle hs' =>
    have hnews : news s s' = [] := by
      rw [hs']
      exact List.drop_length
    rw [hnews] at hlearned
    cases hlearned

/-- A step leaves the settings of the cache. -/
theorem policy_of_step (hstep : Step s s') : s'.cache.policy = s.cache.policy := by
  cases effect_of_step hstep with
  | answered user basis? hbasis rejected hs' => rw [hs', turn_cache]
  | admitted user breaker hallow hs' =>
    rw [hs']
    rfl
  | rested before after c hc hs' => rw [hs', turn_cache]
  | succeeded before after c hc hasking found hs' =>
    rw [hs', turn_cache]
    rfl
  | failed before after c hc basis? hbasis hs' => rw [hs', turn_cache]
  | resumed before after c hc hs' =>
    rw [hs']
    rfl
  | evicted who hs' =>
    obtain ⟨entries, hevict⟩ := evict_eq_turn s who
    rw [hs', hevict, turn_cache]
  | waited later hle hs' =>
    rw [hs']
    rfl

/-- The evidence is the entry that a caller without another answer gets. -/
theorem Remembered.evidence? (h : Remembered s) (ttl : Span) (user : Int) :
    Existence.evidence? ttl s user = s.cache.youngEntry? s.now (2 * ttl) user := by
  unfold Existence.evidence? Cache.youngEntry?
  rw [h user]

section runs

variable {policy : CachePolicy} {circuit : BreakerConfig Span}
  {allowed : Inquiries → Inquiries → Prop}

/-- In every run the entries are what the history tells. -/
theorem remembered_of_reachable (h : Reachable policy circuit allowed s) : Remembered s := by
  induction h with
  | start now => exact fun user => rfl
  | step _ hstep _ ih => exact remembered_step ih hstep

/-- The settings are the same in every state of a run. -/
theorem policy_of_reachable (h : Reachable policy circuit allowed s) : s.cache.policy = policy := by
  induction h with
  | start now => rfl
  | step _ hstep _ ih => rw [policy_of_step hstep, ih]

end runs

end Existence

end EventRelay
