import EventRelay.Proofs.Handler.Reaction
import Mathlib.Data.List.Induction

/-!
# The same deliveries in any order

Deliveries are handed out again after a failure, are taken over from another consumer, and come from
several partitions, so the handler sees them in any order and some of them more than once.  What it
leaves behind does not depend on that.  A reaction only ever takes rows and entries away, and which
ones is said by its payload alone; so what is left is what every reaction leaves, and it does not
matter which came first.  A delivery that comes again is recorded, or it was refused before and is
refused again.

* `survivors`: what a number of reactions leave of a list.
* `after_handleAll`: what is left of tasks and entries, and which keys the ledger has, after any
  sequence of deliveries.
* `handling_converges`: the main statement.
-/

namespace EventRelay.Handler

open Work

/-! ## What is left of a list -/

section survivors

variable {α β : Type} (keeps : β → α → Bool) (l : List α)

/-- What is left of a list when every one of these has taken away what it does not keep. -/
def survivors (takers : List β) : List α := l.filter fun x => takers.all (keeps · x)

/-- Where nobody takes anything away all is left. -/
theorem survivors_nil : survivors keeps l [] = l := List.filter_eq_self.mpr fun _ _ => rfl

/-- The last one takes from what the others have left. -/
theorem survivors_concat (takers : List β) (b : β) :
    survivors keeps l (takers ++ [b]) = (survivors keeps l takers).filter (keeps b) := by
  unfold survivors
  rw [List.filter_filter]
  refine List.filter_congr fun x _ => ?_
  rw [List.all_append, List.all_cons, List.all_nil, Bool.and_true, Bool.and_comm]

/-- One that keeps all that the others leave takes nothing away. -/
theorem survivors_concat_of_keeps {takers : List β} {b : β}
    (h : ∀ x, takers.all (keeps · x) = true → keeps b x = true) :
    survivors keeps l (takers ++ [b]) = survivors keeps l takers := by
  rw [survivors_concat, List.filter_eq_self]
  intro x hx
  exact h x (List.mem_filter.mp hx).2

/-- Neither the order nor how often one occurs matters. -/
theorem survivors_congr {takers others : List β} (h : ∀ b, b ∈ takers ↔ b ∈ others) :
    survivors keeps l takers = survivors keeps l others := by
  unfold survivors
  refine List.filter_congr fun x _ => ?_
  rw [Bool.eq_iff_iff, List.all_eq_true, List.all_eq_true]
  exact forall_congr' fun b => by rw [h b]

end survivors

/-! ## Sequences of deliveries -/

/-- Handles deliveries one after another, each at its time, and carries on where one raises. -/
def handleAll (legacy : Bool) (l : List (Instant × Delivery)) (s : Session) : Session :=
  l.foldl (fun s x => ((handle legacy x.2).run { s with now := x.1 }).2) s

/-- What a delivery is due to bring about: nothing where it was recorded from the beginning. -/
def due (legacy : Bool) (s : Session) (d : Delivery) : Reaction :=
  if s.stored.isRecorded d.eventKey then .nothing else reaction legacy d.payload

/-- What has become of a session by these deliveries. -/
structure After (legacy : Bool) (s : Session) (handled : List Delivery) (t : Session) : Prop where
  /-- Nothing is scripted. -/
  script : t.script = .none
  /-- The outbox is the same. -/
  outbox : t.stored.outbox = s.stored.outbox
  /-- The users are the same. -/
  users : t.stored.users = s.stored.users
  /-- The tasks are those that every delivery leaves. -/
  tasks : t.stored.tasks =
    survivors (fun d => (due legacy s d).keeps) s.stored.tasks handled
  /-- The ledger has the keys of the deliveries that were not refused. -/
  ledger : ∀ key, t.stored.isRecorded key = true ↔ s.stored.isRecorded key = true ∨
    ∃ d ∈ handled, d.eventKey = key ∧ reaction legacy d.payload ≠ .refuse
  /-- The entries are those that every delivery leaves. -/
  entries : t.cache.entries =
    survivors (fun d p => (due legacy s d).remembers p.1) s.cache.entries handled

/-- Deliveries of one key have one payload. -/
def Consistent (l : List Delivery) : Prop :=
  ∀ d ∈ l, ∀ d' ∈ l, d.eventKey = d'.eventKey → d.payload = d'.payload

variable {legacy : Bool} {s t : Session} {handled : List Delivery} {d : Delivery}

/-- A delivery of a key that is recorded is due to take nothing away that the others leave. -/
theorem After.known (h : After legacy s handled t) (hconsistent : Consistent (handled ++ [d]))
    (hrecorded : t.stored.isRecorded d.eventKey = true) (leaves : Reaction → Bool)
    (hnothing : leaves .nothing = true)
    (hall : handled.all (fun d' => leaves (due legacy s d')) = true) :
    leaves (due legacy s d) = true := by
  rcases (h.ledger d.eventKey).mp hrecorded with hbefore | ⟨d', hd', hkey, -⟩
  · have hidle : due legacy s d = .nothing := if_pos hbefore
    rw [hidle, hnothing]
  · have hpayload := hconsistent d' (List.mem_append_left _ hd') d
      (List.mem_append_right _ List.mem_cons_self) hkey
    have hsame : due legacy s d' = due legacy s d := by
      unfold due
      rw [hkey, hpayload]
    rw [← hsame]
    exact List.all_eq_true.mp hall d' hd'

/-- A delivery that changes nothing is due to take away nothing more. -/
theorem After.idle (h : After legacy s handled t)
    (hkeeps : ∀ x, handled.all (fun d' => (due legacy s d').keeps x) = true →
      (due legacy s d).keeps x = true)
    (hremembers : ∀ p : Int × CacheEntry,
      handled.all (fun d' => (due legacy s d').remembers p.1) = true →
        (due legacy s d).remembers p.1 = true)
    (hledger : reaction legacy d.payload ≠ .refuse → t.stored.isRecorded d.eventKey = true)
    {u : Session} (hstored : u.stored = t.stored) (hcache : u.cache = t.cache)
    (hscript : u.script = .none) : After legacy s (handled ++ [d]) u where
  script := hscript
  outbox := by rw [hstored, h.outbox]
  users := by rw [hstored, h.users]
  tasks := by
    rw [hstored, h.tasks]
    exact (survivors_concat_of_keeps _ _ hkeeps).symm
  ledger key := by
    rw [hstored]
    constructor
    · intro hrecorded
      rcases (h.ledger key).mp hrecorded with hbefore | ⟨d', hd', hd'key⟩
      · exact .inl hbefore
      · exact .inr ⟨d', List.mem_append_left _ hd', hd'key⟩
    · rintro (hbefore | ⟨d', hd', hkey, hdone⟩)
      · exact (h.ledger key).mpr (.inl hbefore)
      · rcases List.mem_append.mp hd' with hd' | hd'
        · exact (h.ledger key).mpr (.inr ⟨d', hd', hkey, hdone⟩)
        · obtain rfl := List.mem_singleton.mp hd'
          rw [← hkey]
          exact hledger hdone
  entries := by
    rw [hcache, h.entries]
    exact (survivors_concat_of_keeps _ _ hremembers).symm

/-- What one more delivery makes of the session. -/
theorem After.handle (h : After legacy s handled t) (hconsistent : Consistent (handled ++ [d]))
    (now : Instant) :
    After legacy s (handled ++ [d]) ((Handler.handle legacy d).run { t with now }).2 := by
  have hhonest : ({ t with now } : Session).script.IsHonest := by
    show t.script.IsHonest
    rw [h.script]
    exact DbScript.within_none
  have hnone : ({ t with now } : Session).script = .none := h.script
  cases handled_run hhonest legacy d with
  | known hrecorded hr hstored hcache hquiet =>
    exact h.idle
      (fun x hall => h.known hconsistent hrecorded (·.keeps x) rfl hall)
      (fun p hall => h.known hconsistent hrecorded (·.remembers p.1) rfl hall)
      (fun _ => hrecorded) hstored hcache (hquiet hnone)
  | refused hnew hrefuse hr hstored hcache hquiet =>
    have hidle : due legacy s d = .nothing ∨ due legacy s d = .refuse := by
      unfold due
      split
      · exact .inl rfl
      · exact .inr hrefuse
    refine h.idle (fun x _ => ?_) (fun p _ => ?_) (fun hdone => absurd hrefuse hdone) hstored hcache
      (hquiet hnone)
    · rcases hidle with hidle | hidle <;> rw [hidle] <;> rfl
    · rcases hidle with hidle | hidle <;> rw [hidle] <;> rfl
  | failed hscripted hr hstored => exact absurd hnone hscripted
  | done hnew hdone hr row hkey hstored hcache hquiet =>
    have hfresh : s.stored.isRecorded d.eventKey = false := by
      rw [← Bool.not_eq_true]
      intro hbefore
      have hrecorded := (h.ledger d.eventKey).mpr (.inl hbefore)
      exact absurd hrecorded (by rw [hnew]; exact Bool.false_ne_true)
    have hdue : due legacy s d = reaction legacy d.payload := by
      unfold due
      rw [hfresh]
      rfl
    constructor
    case script => exact hquiet hnone
    case outbox =>
      rw [hstored]
      exact h.outbox
    case users =>
      rw [hstored]
      exact h.users
    case tasks =>
      rw [survivors_concat, ← h.tasks, hdue, hstored]
      rfl
    case ledger =>
      intro key
      have hledger : ((Handler.handle legacy d).run { t with now }).2.stored.ledger =
          t.stored.ledger ++ [row] := congrArg Database.ledger hstored
      rw [Database.isRecorded_append_iff hledger, hkey, h.ledger key]
      constructor
      · rintro ((hbefore | ⟨d', hd', hd'key⟩) | hdkey)
        · exact .inl hbefore
        · exact .inr ⟨d', List.mem_append_left _ hd', hd'key⟩
        · exact .inr ⟨d, List.mem_append_right _ List.mem_cons_self, hdkey, hdone⟩
      · rintro (hbefore | ⟨d', hd', hd'key, hd'done⟩)
        · exact .inl (.inl hbefore)
        · rcases List.mem_append.mp hd' with hd' | hd'
          · exact .inl (.inr ⟨d', hd', hd'key, hd'done⟩)
          · rw [List.mem_singleton.mp hd'] at hd'key
            exact .inr hd'key
    case entries =>
      rw [survivors_concat, ← h.entries, hdue, hcache]
      rfl

/-- What any sequence of deliveries leaves behind. -/
theorem after_handleAll (hscript : s.script = .none) (l : List (Instant × Delivery))
    (hconsistent : Consistent (l.map (·.2))) :
    After legacy s (l.map (·.2)) (handleAll legacy l s) := by
  induction l using List.reverseRecOn with
  | nil =>
    refine ⟨hscript, rfl, rfl, (survivors_nil _ _).symm, fun key => ?_, (survivors_nil _ _).symm⟩
    simp [handleAll]
  | append_singleton l x ih =>
    rw [List.map_append, List.map_singleton] at hconsistent ⊢
    have hbefore : Consistent (l.map (·.2)) := fun d hd d' hd' =>
      hconsistent d (List.mem_append_left _ hd) d' (List.mem_append_left _ hd')
    have hlast : handleAll legacy (l ++ [x]) s =
        ((Handler.handle legacy x.2).run { handleAll legacy l s with now := x.1 }).2 := by
      unfold handleAll
      rw [List.foldl_append]
      rfl
    rw [hlast]
    exact (ih hbefore).handle hconsistent x.1

/-- Two sessions agree: the tables are the same, but for what the ledger tells beside its keys, and
so is what is known of users. -/
structure Agree (t u : Session) : Prop where
  /-- The tasks are the same. -/
  tasks : t.stored.tasks = u.stored.tasks
  /-- The ledger has the same keys. -/
  ledger : ∀ key, t.stored.isRecorded key = u.stored.isRecorded key
  /-- The entries of the cache are the same. -/
  entries : t.cache.entries = u.cache.entries
  /-- The outbox is the same. -/
  outbox : t.stored.outbox = u.stored.outbox
  /-- The users are the same. -/
  users : t.stored.users = u.stored.users

/-- Two sequences of the same deliveries leave the same behind, in whatever order and however often
they come. -/
theorem handling_converges (legacy : Bool) (s : Session) (hscript : s.script = .none)
    {first second : List (Instant × Delivery)}
    (hsame : ∀ d, d ∈ first.map (·.2) ↔ d ∈ second.map (·.2))
    (hconsistent : Consistent (first.map (·.2))) :
    Agree (handleAll legacy first s) (handleAll legacy second s) := by
  have hconsistent' : Consistent (second.map (·.2)) := fun d hd d' hd' =>
    hconsistent d ((hsame d).mpr hd) d' ((hsame d').mpr hd')
  have hfirst : After legacy s (first.map (·.2)) (handleAll legacy first s) :=
    after_handleAll hscript first hconsistent
  have hsecond : After legacy s (second.map (·.2)) (handleAll legacy second s) :=
    after_handleAll hscript second hconsistent'
  constructor
  case tasks =>
    rw [hfirst.tasks, hsecond.tasks]
    exact survivors_congr _ _ hsame
  case ledger =>
    intro key
    rw [Bool.eq_iff_iff, hfirst.ledger, hsecond.ledger]
    simp only [hsame]
  case entries =>
    rw [hfirst.entries, hsecond.entries]
    exact survivors_congr _ _ hsame
  case outbox => rw [hfirst.outbox, hsecond.outbox]
  case users => rw [hfirst.users, hsecond.users]

/-! ## Two orders -/

/-- A delivery of the topic of users with this offset and payload. -/
def letter (offset payload : String) : Delivery := ⟨"users", 0, offset, payload, none, []⟩

/-- Tasks of three users, of whom something is known. -/
def threeUsers : Session where
  now := 0
  stored :=
    { Database.empty with
      tasks := [1, 2, 3].map fun user => ⟨user, user, "t", none, "todo", 0, 0⟩ }
  staged := .empty
  begun := false
  script := .none
  cache := { Cache.fresh ⟨300, 1, ⟨0, 1⟩, true⟩ ⟨"users", 1, 30⟩ with
    entries := [1, 2, 3].map fun user => (user, ⟨true, 0⟩) }
  tally := []
  notices := []

/-- The deletion of a user, of one that no column can hold, a change, and what nobody can read. -/
def someLetters : List Delivery :=
  [letter "1" "user.deleted (1)", letter "2" "user.deleted (99999999999999999999)",
    letter "3" (UserEvent.wire ⟨"UPDATED", .ofInstant 0, 2, none⟩), letter "4" "?"]

/-- They come from the last to the first, and then once more the other way round. -/
def backAndForth : List (Instant × Delivery) :=
  someLetters.reverse.map ((0, ·)) ++ someLetters.map ((1, ·))

/-- In either order, tasks and entry of the first user are gone, and the second is forgotten. -/
theorem handling_converges_of_reverse :
    Agree (handleAll true (someLetters.map ((0, ·))) threeUsers)
      (handleAll true backAndForth threeUsers) ∧
      (handleAll true backAndForth threeUsers).stored.tasks.map (·.userId) = [2, 3] ∧
      (handleAll true backAndForth threeUsers).cache.entries.map (·.1) = [3] := by
  refine ⟨handling_converges true threeUsers rfl ?_ ?_, ?_, ?_⟩
  · intro d
    simp [backAndForth]
  · have hall : ∀ d ∈ someLetters, ∀ d' ∈ someLetters,
        d.eventKey = d'.eventKey → d.payload = d'.payload := by
      decide +kernel
    simpa [Consistent] using hall
  · decide +kernel
  · decide +kernel

end EventRelay.Handler
