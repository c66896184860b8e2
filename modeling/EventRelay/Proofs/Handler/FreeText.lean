import EventRelay.Proofs.Handler.Convergence
import Mathlib.Algebra.Group.Nat.Defs

/-!
# Free text

Producers of an older generation send free text.  What it asks for hangs on the markers that occur
in it and on the last of its groups: digits alone between two parentheses, after which no
parenthesis follows.  A text ends in one such group at most, since the closing parenthesis is the
last parenthesis of the text and the opening one is the last before it.  So it does not matter from
which end a text is searched.

* `EndsInGroup`: how such a text is put together; `EndsInGroup.unique`: in one way.
* `groupDigits?_eq_some_iff`: the search finds the digits exactly where there is a group.
* `Obeys`: what handling a free text comes to; `obeys_run`: every call does that.
* `free_text_handled`: the main statement, also for a handler that takes no free text.
-/

namespace EventRelay

/-- A text occurs in another where it stands between two parts of it. -/
theorem Text.contains_iff {part text : List Char} :
    Text.contains part text = true ↔ part <:+: text := by
  induction text with
  | nil =>
    rw [List.infix_nil, ← List.isEmpty_iff]
    rfl
  | cons c cs ih =>
    rw [contains, Bool.or_eq_true, ih, List.isPrefixOf_iff_prefix, List.infix_cons_iff]

namespace Handler

open Work

/-! ## The last group -/

/-- A text ends in a group: digits in parentheses, and then text without parentheses. -/
structure EndsInGroup (text before digits after : List Char) : Prop where
  /-- These are its parts. -/
  parts : text = before ++ '(' :: (digits ++ ')' :: after)
  /-- There is a digit. -/
  nonempty : digits ≠ []
  /-- There are only digits. -/
  digits : ∀ c ∈ digits, DecimalDigit.isDigit c = true
  /-- No other parenthesis follows. -/
  outside : ∀ c ∈ after, isParenthesis c = false

section group

variable {text before before' digits digits' after after' : List Char}

/-- A parenthesis is no digit. -/
theorem isDigit_opening : DecimalDigit.isDigit '(' = false := by decide

/-- From its end such a text begins with what has no parentheses. -/
theorem EndsInGroup.reverse (h : EndsInGroup text before digits after) :
    text.reverse = after.reverse ++ ')' :: (digits.reverse ++ '(' :: before.reverse) := by
  rw [h.parts]
  simp

/-- Read backwards, what comes before the group has no parenthesis. -/
theorem EndsInGroup.outside_reverse (h : EndsInGroup text before digits after) :
    ∀ c ∈ after.reverse, (!isParenthesis c) = true :=
  fun c hc => by rw [h.outside c (List.mem_reverse.mp hc), Bool.not_false]

/-- The search finds the digits of the group. -/
theorem EndsInGroup.found (h : EndsInGroup text before digits after) :
    groupDigits? text = some digits := by
  have hdigits : ∀ c ∈ digits.reverse, DecimalDigit.isDigit c = true :=
    fun c hc => h.digits c (List.mem_reverse.mp hc)
  obtain ⟨d, ds, hds⟩ := List.exists_cons_of_ne_nil (List.reverse_ne_nil_iff.mpr h.nonempty)
  have hclosing : (!isParenthesis ')') = false := rfl
  unfold groupDigits?
  rw [h.reverse, List.dropWhile_append_of_pos h.outside_reverse, List.dropWhile_cons, hclosing]
  simp only [Bool.false_eq_true, if_false]
  rw [List.takeWhile_append_of_pos hdigits, List.dropWhile_append_of_pos hdigits,
    List.takeWhile_cons, List.dropWhile_cons, isDigit_opening]
  simp only [Bool.false_eq_true, if_false, List.append_nil]
  rw [hds]
  simp only
  rw [← hds, List.reverse_reverse]

/-- Where the search finds digits, the text ends in their group. -/
theorem endsInGroup_of_found (h : groupDigits? text = some digits) :
    ∃ before after, EndsInGroup text before digits after := by
  have hsplit := List.takeWhile_append_dropWhile (p := fun c => !isParenthesis c)
    (l := text.reverse)
  have houtside : ∀ c ∈ text.reverse.takeWhile fun c => !isParenthesis c,
      isParenthesis c = false :=
    fun c hc => by simpa using List.all_eq_true.mp List.all_takeWhile c hc
  -- the reversed text is what has no parentheses, then `)`, the digits and `(`, and then the rest
  unfold groupDigits? at h
  split at h
  · rename_i r hclosing
    have hdigits : ∀ c ∈ r.takeWhile DecimalDigit.isDigit, DecimalDigit.isDigit c = true :=
      List.all_eq_true.mp List.all_takeWhile
    have hrest := List.takeWhile_append_dropWhile (p := DecimalDigit.isDigit) (l := r)
    dsimp only at h
    split at h
    · cases h
    · rename_i r' hopening hne
      cases h
      rw [hclosing, ← hrest, hopening] at hsplit
      refine ⟨r'.reverse, (text.reverse.takeWhile fun c => !isParenthesis c).reverse, ?_, ?_, ?_,
        ?_⟩
      · have hparts := congrArg List.reverse hsplit
        rw [List.reverse_reverse] at hparts
        exact hparts.symm.trans (by simp)
      · exact fun hnil => hne (List.reverse_eq_nil_iff.mp hnil)
      · exact fun c hc => hdigits c (List.mem_reverse.mp hc)
      · exact fun c hc => houtside c (List.mem_reverse.mp hc)
    · cases h
  · cases h

/-- The search finds a group exactly where the text ends in one. -/
theorem groupDigits?_eq_some_iff :
    groupDigits? text = some digits ↔ ∃ before after, EndsInGroup text before digits after :=
  ⟨endsInGroup_of_found, fun ⟨_, _, h⟩ => h.found⟩

/-- A text ends in a group in one way only. -/
theorem EndsInGroup.unique (h : EndsInGroup text before digits after)
    (h' : EndsInGroup text before' digits' after') :
    before = before' ∧ digits = digits' ∧ after = after' := by
  have hdigits : digits = digits' := Option.some.inj (h.found.symm.trans h'.found)
  have htake {before digits after : List Char} (h : EndsInGroup text before digits after) :
      text.reverse.takeWhile (fun c => !isParenthesis c) = after.reverse := by
    rw [h.reverse, List.takeWhile_append_of_pos h.outside_reverse]
    simp [isParenthesis]
  have hafter : after = after' := List.reverse_inj.mp ((htake h).symm.trans (htake h'))
  subst hdigits hafter
  exact ⟨List.append_cancel_right (h.parts.symm.trans h'.parts), rfl, rfl⟩

end group

/-! ## What a free text asks for -/

section request

variable {raw : String} {before digits after : List Char}

/-- A marker occurs in a text. -/
def Mentions (raw marker : String) : Prop := marker.toList <:+: raw.toList

/-- The search for a marker is right. -/
theorem mentions_iff {marker : String} :
    mentions raw.toList marker = true ↔ Mentions raw marker := Text.contains_iff

/-- The numbers that a column can hold. -/
theorem fitsWord_natCast {n : Nat} : Scalar.fitsWord n = true ↔ n < 2 ^ 63 := by
  unfold Scalar.fitsWord Scalar.leastWord Scalar.greatestWord
  rw [Bool.and_eq_true, decide_eq_true_iff, decide_eq_true_iff]
  omega

/-- A deletion with a group is about the user whose number stands there. -/
theorem ofText_of_group (hdeleted : Mentions raw "user.deleted")
    (hgroup : EndsInGroup raw.toList before digits after) (hshort : digits.length ≤ 4300)
    (hsmall : DecimalDigit.number digits < 2 ^ 63) :
    Reaction.ofText raw = .remove (DecimalDigit.number digits) := by
  have hconverted : ¬ digitsLimit < digits.length := Nat.not_lt.mpr hshort
  unfold Reaction.ofText Request.ofText
  rw [if_pos (mentions_iff.mpr hdeleted), hgroup.found]
  dsimp only
  rw [if_neg hconverted]
  exact if_pos (fitsWord_natCast.mpr hsmall)

/-- A number that is not converted, or that no column can hold, cannot be removed. -/
theorem ofText_of_unusable (hdeleted : Mentions raw "user.deleted")
    (hgroup : EndsInGroup raw.toList before digits after)
    (hunusable : 4300 < digits.length ∨ 2 ^ 63 ≤ DecimalDigit.number digits) :
    Reaction.ofText raw = .refuse := by
  unfold Reaction.ofText Request.ofText
  rw [if_pos (mentions_iff.mpr hdeleted), hgroup.found]
  dsimp only
  by_cases hlong : digitsLimit < digits.length
  · rw [if_pos hlong]
  · have hlarge : ¬ DecimalDigit.number digits < 2 ^ 63 :=
      Nat.not_lt.mpr (hunusable.resolve_left hlong)
    rw [if_neg hlong]
    exact if_neg (fitsWord_natCast.not.mpr hlarge)

/-- A deletion without a group asks for nothing. -/
theorem ofText_of_no_group (hdeleted : Mentions raw "user.deleted")
    (hnone : ¬ ∃ before digits after, EndsInGroup raw.toList before digits after) :
    Reaction.ofText raw = .nothing := by
  have hfound : groupDigits? raw.toList = none := by
    rw [Option.eq_none_iff_forall_ne_some]
    intro digits hdigits
    obtain ⟨before, after, hgroup⟩ := endsInGroup_of_found hdigits
    exact hnone ⟨before, digits, after, hgroup⟩
  unfold Reaction.ofText Request.ofText
  rw [if_pos (mentions_iff.mpr hdeleted), hfound]

/-- A change makes everything be forgotten. -/
theorem ofText_of_changed (hdeleted : ¬ Mentions raw "user.deleted")
    (hchanged : Mentions raw "user.updated" ∨ Mentions raw "user.created") :
    Reaction.ofText raw = .forgetAll := by
  have hmarked : (mentions raw.toList "user.updated" || mentions raw.toList "user.created") =
      true := by
    rw [Bool.or_eq_true, mentions_iff, mentions_iff]
    exact hchanged
  unfold Reaction.ofText Request.ofText
  rw [if_neg (mentions_iff.not.mpr hdeleted), if_pos hmarked]

/-- A text without a marker asks for nothing. -/
theorem ofText_of_unmarked (hdeleted : ¬ Mentions raw "user.deleted")
    (hupdated : ¬ Mentions raw "user.updated") (hcreated : ¬ Mentions raw "user.created") :
    Reaction.ofText raw = .nothing := by
  have hmarked : ¬ (mentions raw.toList "user.updated" || mentions raw.toList "user.created") =
      true := by
    rw [Bool.or_eq_true, mentions_iff, mentions_iff]
    exact not_or.mpr ⟨hupdated, hcreated⟩
  unfold Reaction.ofText Request.ofText
  rw [if_neg (mentions_iff.not.mpr hdeleted), if_neg hmarked]

end request

/-! ## Handling a free text -/

/-- A call that does what a reaction says, and records its delivery with that. -/
structure Brings (x : Reaction) (d : Delivery) (s : Session) (r : Except Failure HandleOutcome)
    (t : Session) : Prop where
  /-- The delivery is processed. -/
  result : r = .ok .processed
  /-- The tables are as the reaction leaves them, and the ledger has one row more. -/
  stored : ∃ row : LedgerRow, row.eventKey = d.eventKey ∧
    t.stored = { x.onTables s.stored with ledger := s.stored.ledger ++ [row] }
  /-- The cache is as the reaction leaves it. -/
  cache : t.cache = x.onCache s.cache

/-- A call that raises and changes nothing. -/
structure Raises (s : Session) (r : Except Failure HandleOutcome) (t : Session) : Prop where
  /-- It raises. -/
  result : ∃ e, r = .error e
  /-- The tables are the same. -/
  stored : t.stored = s.stored
  /-- So is the cache. -/
  cache : t.cache = s.cache

/-- What handling a free text comes to. -/
structure Obeys (d : Delivery) (s : Session) (r : Except Failure HandleOutcome) (t : Session) :
    Prop where
  /-- A deletion removes the tasks of the user in its group, and forgets that user. -/
  deletes : Mentions d.payload "user.deleted" → ∀ before digits after,
    EndsInGroup d.payload.toList before digits after → digits.length ≤ 4300 →
    DecimalDigit.number digits < 2 ^ 63 → Brings (.remove (DecimalDigit.number digits)) d s r t
  /-- One whose number has too many digits, or is too large for a column, raises. -/
  raises : Mentions d.payload "user.deleted" → ∀ before digits after,
    EndsInGroup d.payload.toList before digits after →
    4300 < digits.length ∨ 2 ^ 63 ≤ DecimalDigit.number digits → Raises s r t
  /-- One without a group has no effect. -/
  misses : Mentions d.payload "user.deleted" →
    (¬ ∃ before digits after, EndsInGroup d.payload.toList before digits after) →
    Brings .nothing d s r t
  /-- A creation or a change forgets all users. -/
  forgets : ¬ Mentions d.payload "user.deleted" →
    Mentions d.payload "user.updated" ∨ Mentions d.payload "user.created" →
    Brings .forgetAll d s r t
  /-- Any other text has no effect. -/
  ignores : ¬ Mentions d.payload "user.deleted" → ¬ Mentions d.payload "user.updated" →
    ¬ Mentions d.payload "user.created" → Brings .nothing d s r t

section handling

variable {legacy : Bool} {d : Delivery} {s : Session}

/-- The reaction to a payload that is no envelope. -/
theorem reaction_of_free (legacy : Bool)
    (hfree : ∀ e, UserEvent.ofWire (.ofInstant s.now) d.payload ≠ .ok e) :
    reaction legacy d.payload = if legacy then .ofText d.payload else .refuse := by
  rw [← ofReading_ofWire legacy (.ofInstant s.now)]
  rcases hread : UserEvent.ofWire (.ofInstant s.now) d.payload with problems | e
  · rfl
  · exact absurd hread (hfree e)

section run

variable (hquiet : s.script = .none) (hnew : s.stored.isRecorded d.eventKey = false)

include hquiet hnew

/-- With nothing scripted, a call for a delivery that is not recorded raises where its payload asks
for something that cannot be done, and else it brings about what the payload asks for. -/
theorem raises_or_brings :
    (reaction legacy d.payload = .refuse ∧
      Raises s ((handle legacy d).run s).1 ((handle legacy d).run s).2) ∨
    (reaction legacy d.payload ≠ .refuse ∧
      Brings (reaction legacy d.payload) d s ((handle legacy d).run s).1
        ((handle legacy d).run s).2) := by
  have hhonest : s.script.IsHonest := hquiet ▸ DbScript.within_none
  cases handled_run hhonest legacy d with
  | known hrecorded => exact absurd hrecorded (Bool.eq_false_iff.mp hnew)
  | refused _ hrefuse hr hstored hcache => exact .inl ⟨hrefuse, hr, hstored, hcache⟩
  | failed hscripted => exact absurd hquiet hscripted
  | done _ hdone hr row hkey hstored hcache => exact .inr ⟨hdone, hr, ⟨row, hkey, hstored⟩, hcache⟩

/-- A call whose reaction is no refusal brings it about. -/
theorem brings_run {x : Reaction} (hx : reaction legacy d.payload = x) (hdone : x ≠ .refuse) :
    Brings x d s ((handle legacy d).run s).1 ((handle legacy d).run s).2 := by
  subst hx
  exact ((raises_or_brings hquiet hnew).resolve_left fun h => hdone h.1).2

/-- A call whose reaction is a refusal raises and changes nothing. -/
theorem raises_run (hrefuse : reaction legacy d.payload = .refuse) :
    Raises s ((handle legacy d).run s).1 ((handle legacy d).run s).2 :=
  ((raises_or_brings hquiet hnew).resolve_right fun h => h.1 hrefuse).2

/-- What applying the payload raises is what the call raises. -/
theorem error_run {e : Failure}
    (hraise : ∀ t : Session, t.now = s.now →
      ((applyPayload legacy d.payload).follow t).1 = .error e) :
    ((handle legacy d).run s).1 = .error e := by
  have hsettled : (settled s).script = .none := hquiet
  have hexists : (ledgerExists d.eventKey).follow (settled s) =
      (.ok false, { settled s with begun := true }) := by
    unfold ledgerExists
    rw [follow_perform hsettled]
    exact congrArg (fun b => (Except.ok b, { settled s with begun := true })) hnew
  unfold run handle handleNew
  rw [follow_bind, hexists]
  dsimp only
  rw [if_neg Bool.false_ne_true, follow_bind]
  have hfirst := hraise { settled s with begun := true } rfl
  rcases hfollow : (applyPayload legacy d.payload).follow { settled s with begun := true } with
    ⟨r, t⟩
  rw [hfollow] at hfirst
  rw [show r = .error e from hfirst]

/-- Every call for a free text obeys it. -/
theorem obeys_run (hfree : ∀ e, UserEvent.ofWire (.ofInstant s.now) d.payload ≠ .ok e) :
    Obeys d s ((handle true d).run s).1 ((handle true d).run s).2 := by
  have hreaction : reaction true d.payload = .ofText d.payload := reaction_of_free true hfree
  constructor
  case deletes =>
    intro hdeleted before digits after hgroup hshort hsmall
    exact brings_run hquiet hnew
      (hreaction.trans (ofText_of_group hdeleted hgroup hshort hsmall)) nofun
  case raises =>
    intro hdeleted before digits after hgroup hunusable
    exact raises_run hquiet hnew (hreaction.trans (ofText_of_unusable hdeleted hgroup hunusable))
  case misses =>
    intro hdeleted hnone
    exact brings_run hquiet hnew (hreaction.trans (ofText_of_no_group hdeleted hnone)) nofun
  case forgets =>
    intro hdeleted hchanged
    exact brings_run hquiet hnew (hreaction.trans (ofText_of_changed hdeleted hchanged)) nofun
  case ignores =>
    intro hdeleted hupdated hcreated
    exact brings_run hquiet hnew
      (hreaction.trans (ofText_of_unmarked hdeleted hupdated hcreated)) nofun

end run

/-- Applying a payload that is no envelope, where free text is not taken, raises what was wrong with
it. -/
theorem follow_applyPayload_of_free {problems : List Problem} {t : Session}
    (h : UserEvent.ofWire (.ofInstant t.now) d.payload = .error problems) :
    ((applyPayload false d.payload).follow t).1 = .error (.unreadableEvent problems) := by
  unfold applyPayload
  rw [follow_bind, follow_now]
  dsimp only
  rw [h]
  rfl

end handling

/-- What becomes of a delivery that is not recorded and whose payload is no envelope.  Its text ends
in one group at most, and the search finds the digits exactly where it does.  A handler that takes
free text does what the markers and the group say, and only raises over a number that is too long or
too large; one that takes none raises the problems of the payload.  Nothing is changed where
something is raised. -/
theorem free_text_handled {s : Session} (hquiet : s.script = .none) {d : Delivery}
    (hnew : s.stored.isRecorded d.eventKey = false)
    (hfree : ∀ e, UserEvent.ofWire (.ofInstant s.now) d.payload ≠ .ok e) :
    (∀ before digits after before' digits' after',
      EndsInGroup d.payload.toList before digits after →
      EndsInGroup d.payload.toList before' digits' after' →
      before = before' ∧ digits = digits' ∧ after = after') ∧
    (∀ digits, groupDigits? d.payload.toList = some digits ↔
      ∃ before after, EndsInGroup d.payload.toList before digits after) ∧
    Obeys d s ((handle true d).run s).1 ((handle true d).run s).2 ∧
    Raises s ((handle false d).run s).1 ((handle false d).run s).2 ∧
    ∃ problems, ((handle false d).run s).1 = .error (.unreadableEvent problems) := by
  refine ⟨fun _ _ _ _ _ _ => EndsInGroup.unique, fun _ => groupDigits?_eq_some_iff,
    obeys_run hquiet hnew hfree, raises_run hquiet hnew (reaction_of_free false hfree), ?_⟩
  rcases hread : UserEvent.ofWire (.ofInstant s.now) d.payload with problems | e
  · refine ⟨problems, error_run hquiet hnew fun t ht => follow_applyPayload_of_free ?_⟩
    rw [ht]
    exact hread
  · exact absurd hread (hfree e)

/-- A deletion in which several numbers stand in parentheses, with more text after the last. -/
def severalGroups : Delivery := letter "1" "user.updated (1), user.deleted (3) (2)\nbye"

/-- It deletes the tasks of the second user and forgets only that user, or raises where no free
text is taken. -/
theorem free_text_handled_of_several :
    Brings (.remove 2) severalGroups threeUsers ((handle true severalGroups).run threeUsers).1
        ((handle true severalGroups).run threeUsers).2 ∧
      ((handle true severalGroups).run threeUsers).2.stored.tasks.map (·.userId) = [1, 3] ∧
      ((handle true severalGroups).run threeUsers).2.cache.entries.map (·.1) = [1, 3] ∧
      Raises threeUsers ((handle false severalGroups).run threeUsers).1
        ((handle false severalGroups).run threeUsers).2 := by
  have hfree : ∀ e, UserEvent.ofWire (.ofInstant threeUsers.now) severalGroups.payload ≠ .ok e := by
    intro e he
    have hnone : (UserEvent.ofWire (.ofInstant threeUsers.now) severalGroups.payload).toOption =
        none := by decide +kernel
    rw [he] at hnone
    cases hnone
  obtain ⟨-, hfound, hobeys, hraises, -⟩ :=
    free_text_handled (s := threeUsers) rfl (d := severalGroups) (by decide +kernel) hfree
  obtain ⟨before, after, hgroup⟩ := (hfound ['2']).mp (by decide +kernel)
  have hdeleted : Mentions severalGroups.payload "user.deleted" :=
    mentions_iff.mp (by decide +kernel)
  have hbrings := hobeys.deletes hdeleted before ['2'] after hgroup (by decide) (by decide)
  refine ⟨hbrings, ?_, ?_, hraises⟩
  · obtain ⟨row, -, hstored⟩ := hbrings.stored
    rw [hstored]
    rfl
  · rw [hbrings.cache]
    decide +kernel

end Handler

end EventRelay
