import EventRelay.Json.Reader
import EventRelay.Json.Writer
import EventRelay.Proofs.Json.Strings
import EventRelay.Proofs.Number.Digits

/-!
# Documents are read back

A written value is read as that value wherever it stands in a document, as long as what follows
cannot be taken for a part of it.  `Denotes` says so of a text and a value, and also how many
containers the text opens.

* `denotes_null`, `denotes_int`, `denotes_text`: the scalars.
* `denotes_object`: an object denotes what its members denote; it opens one container more.
* `read_of_denotes`: a whole document.
-/

namespace EventRelay.Json

variable {d : Dialect}

/-- What may follow a value in a document: nothing, or a character that ends it. -/
def Ends (r : List Char) : Prop :=
  ∀ c ∈ r.head?, c = ',' ∨ c = '\x7d' ∨ c = ']' ∨ isBlank c = true

/-- A text is read as a value where at least `room` more containers may be opened. -/
def Denotes (d : Dialect) (room : Nat) (cs : List Char) (v : Json) : Prop :=
  ∀ fuel depth r, cs.length < fuel → depth + room ≤ d.maxDepth → Ends r →
    readValue d fuel depth (cs ++ r) = .ok (v, r)

/-! ## What ends a value -/

/-- A value ends where the document does. -/
theorem ends_nil : Ends [] := nofun

/-- A value ends at a comma and where its container is closed. -/
theorem ends_cons {c : Char} {r : List Char} (h : c = ',' ∨ c = '\x7d' ∨ c = ']') :
    Ends (c :: r) := by
  rintro _ ⟨⟩
  rcases h with h | h | h
  · exact .inl h
  · exact .inr (.inl h)
  · exact .inr (.inr (.inl h))

/-- No part of a numeral ends a value. -/
theorem Ends.not_numeral {r : List Char} (h : Ends r) {c : Char} (hc : c ∈ r.head?) :
    c.isDigit = false ∧ c ≠ '.' ∧ c ≠ 'e' ∧ c ≠ 'E' := by
  rcases h c hc with rfl | rfl | rfl | hblank
  · decide
  · decide
  · decide
  · unfold isBlank at hblank
    simp only [Bool.or_eq_true, decide_eq_true_eq] at hblank
    rcases hblank with ((rfl | rfl) | rfl) | rfl
    all_goals decide

/-! ## Blanks -/

/-- All blanks are skipped. -/
theorem skipBlanks_append {blanks cs : List Char} (h : ∀ c ∈ blanks, isBlank c = true) :
    skipBlanks (blanks ++ cs) = skipBlanks cs := List.dropWhile_append_of_pos h

/-- Nothing else is skipped. -/
theorem skipBlanks_cons {c : Char} {cs : List Char} (h : isBlank c = false) :
    skipBlanks (c :: cs) = c :: cs := by
  unfold skipBlanks
  rw [List.dropWhile_cons, if_neg (by rw [h]; decide)]

/-- Blanks in front of a value do not matter. -/
theorem Denotes.blanks {room : Nat} {blanks cs : List Char} {v : Json}
    (h : Denotes d room cs v) (hblanks : ∀ c ∈ blanks, isBlank c = true) :
    Denotes d room (blanks ++ cs) v := by
  intro fuel depth r hfuel hdepth hr
  have hread := h fuel depth r (by rw [List.length_append] at hfuel; omega) hdepth hr
  rw [← hread]
  cases fuel with
  | zero => rfl
  | succ fuel =>
    rw [List.append_assoc, readValue, readValue, skipBlanks_append hblanks]

/-! ## Scalars -/

/-- The word for nothing is read as nothing. -/
theorem denotes_null : Denotes d 0 "null".toList .null := by
  intro fuel depth r hfuel hdepth hr
  obtain ⟨fuel, rfl⟩ : ∃ n, fuel = n + 1 := ⟨fuel - 1, by omega⟩
  rfl

/-- The digits of a number, its sign read before, are read as that number. -/
theorem readNumber_toDigits {negative : Bool} {n : Nat} {r : List Char} (hr : Ends r)
    (hshort : ∀ isInteger, d.isTooLong negative isInteger (Nat.toDigits 10 n).length = false) :
    readNumber d negative (Nat.toDigits 10 n ++ r) = .ok (.int (Number.signed negative n), r) := by
  have hspan : Number.spanDigits (Nat.toDigits 10 n ++ r) = (Nat.toDigits 10 n, r) :=
    Number.spanDigits_append (fun _ => Number.isDigit_of_mem_toDigits)
      (fun _ hc => (hr.not_numeral hc).1)
  have hfraction : spanFraction r = ([], r) := by
    cases r with
    | nil => rfl
    | cons c r =>
      have hc := (hr.not_numeral rfl).2.1
      unfold spanFraction
      split
      · rename_i heq
        exact absurd (List.cons.inj heq).1 hc
      · rfl
  have hexponent : spanExponent r = (0, false, r) := by
    cases r with
    | nil => rfl
    | cons c r =>
      have hc := (hr.not_numeral rfl).2.2
      exact if_neg (by rintro (h | h); exacts [hc.1 h, hc.2 h])
  unfold readNumber
  simp only [hspan]
  split
  · rename_i hnil
    exact absurd hnil Nat.toDigits_ne_nil
  · rename_i heq
    cases Number.toDigits_eq_zero_cons heq
  · simp only [hfraction, hexponent, hshort, Number.digitsValue_toDigits]
    rfl

/-- A digit is in front of no word. -/
theorem readScalar_digit {c : Char} {cs : List Char} (h : c.isDigit = true) :
    readScalar d (c :: cs) = readNumber d false (c :: cs) := by
  rw [readScalar]
  all_goals
    rintro _ heq
    cases heq
    exact absurd h (by decide)

/-- A dash before a digit begins a negative number. -/
theorem readScalar_minus {c : Char} {cs : List Char} (h : c.isDigit = true) :
    readScalar d ('-' :: c :: cs) = readNumber d true (c :: cs) := by
  rw [readScalar]
  rintro _ heq
  cases heq
  exact absurd h (by decide)

/-- What is neither blank nor the beginning of a container or a string is read as a scalar. -/
theorem readValue_scalar {fuel depth : Nat} {c : Char} {cs : List Char}
    (h : isBlank c = false ∧ c ≠ '\x7b' ∧ c ≠ '[' ∧ c ≠ '"') :
    readValue d (fuel + 1) depth (c :: cs) = readScalar d (c :: cs) := by
  obtain ⟨hblank, hbrace, hbracket, hquote⟩ := h
  rw [readValue, skipBlanks_cons hblank]
  split
  · rename_i heq
    exact absurd (List.cons.inj heq).1 hbrace
  · rename_i heq
    exact absurd (List.cons.inj heq).1 hbracket
  · rename_i heq
    exact absurd (List.cons.inj heq).1 hquote
  · rfl

/-- A digit begins neither a blank, a container nor a text. -/
theorem not_blank_of_isDigit {c : Char} (h : c.isDigit = true) :
    isBlank c = false ∧ c ≠ '\x7b' ∧ c ≠ '[' ∧ c ≠ '"' := by
  refine ⟨Bool.eq_false_iff.mpr fun hblank => ?_, ?_, ?_, ?_⟩
  · unfold isBlank at hblank
    simp only [Bool.or_eq_true, decide_eq_true_eq] at hblank
    rcases hblank with ((rfl | rfl) | rfl) | rfl
    all_goals exact absurd h (by decide)
  all_goals
    rintro rfl
    exact absurd h (by decide)

/-- An integer is not too long for the dialect, however it is read. -/
def Dialect.Converts (d : Dialect) (n : Int) : Prop :=
  ∀ isInteger, d.isTooLong (decide (n < 0)) isInteger (Nat.toDigits 10 n.natAbs).length = false

/-- The text of an integer is read as the integer. -/
theorem denotes_int {n : Int} (h : d.Converts n) :
    Denotes d 0 (toString n).toList (.int n) := by
  intro fuel depth r hfuel hdepth hr
  obtain ⟨fuel, rfl⟩ : ∃ n, fuel = n + 1 := ⟨fuel - 1, by omega⟩
  have hread := readNumber_toDigits hr h
  obtain ⟨c, ds, hdigits⟩ :=
    List.exists_cons_of_ne_nil (Nat.toDigits_ne_nil (n := n.natAbs) (b := 10))
  have hc : c.isDigit = true :=
    Number.isDigit_of_mem_toDigits (n := n.natAbs) (hdigits ▸ List.mem_cons_self)
  rw [Number.toList_toString]
  rw [hdigits] at hread ⊢
  by_cases hn : n < 0
  · rw [if_pos hn]
    refine (readValue_scalar (by decide)).trans ((readScalar_minus hc).trans ?_)
    rw [decide_eq_true hn] at hread
    refine hread.trans ?_
    unfold Number.signed
    rw [if_pos rfl, Int.ofNat_natAbs_of_nonpos (by omega), neg_neg]
  · rw [if_neg hn]
    refine (readValue_scalar (not_blank_of_isDigit hc)).trans ((readScalar_digit hc).trans ?_)
    rw [decide_eq_false hn] at hread
    refine hread.trans ?_
    unfold Number.signed
    rw [if_neg (by decide), Int.natAbs_of_nonneg (by omega)]

/-! ## Layouts -/

/-- A separator: a mark, and blanks after it. -/
def IsSeparator (mark : Char) (s : String) : Prop :=
  ∃ blanks, s.toList = mark :: blanks ∧ ∀ c ∈ blanks, isBlank c = true

/-- A layout whose documents are read back. -/
structure Layout.Readable (policy : Surrogates) (l : Layout) : Prop where
  /-- A comma between items. -/
  item : IsSeparator ',' l.itemSeparator
  /-- A colon between a name and its value. -/
  member : IsSeparator ':' l.memberSeparator
  /-- Strings are spelled in quotes. -/
  quote : ∃ esc, Spells policy esc ∧
    ∀ s, (l.quote s).toList = '"' :: (s.toList.flatMap esc ++ ['"'])

/-- What is written without blanks is read back. -/
theorem Layout.readable_compact {policy : Surrogates} : Layout.compact.Readable policy where
  item := ⟨[], rfl, nofun⟩
  member := ⟨[], rfl, nofun⟩
  quote := ⟨escape, spells_escape, fun _ => String.toList_ofList⟩

/-- What is written with blanks is read back. -/
theorem Layout.readable_spaced {policy : Surrogates} : Layout.spaced.Readable policy where
  item := ⟨[' '], rfl, List.forall_mem_singleton.mpr rfl⟩
  member := ⟨[' '], rfl, List.forall_mem_singleton.mpr rfl⟩
  quote := ⟨escapeAscii, spells_escapeAscii, fun _ => String.toList_ofList⟩

variable {l : Layout} (hl : l.Readable d.surrogates)

include hl

/-- A quoted string is unquoted, whatever follows it. -/
theorem unquote_quote (s : String) (r : List Char) {fuel : Nat}
    (hfuel : (l.quote s).toList.length ≤ fuel + 1) :
    ∃ cs, (l.quote s).toList = '"' :: cs ∧
      unquote d.surrogates fuel (cs ++ r) = some (s, r) := by
  obtain ⟨esc, hesc, hquote⟩ := hl.quote
  refine ⟨s.toList.flatMap esc ++ ['"'], hquote s, ?_⟩
  rw [hquote s, List.length_cons, List.length_append] at hfuel
  have hlength := hesc.length_le s.toList
  rw [List.append_assoc]
  exact unquote_flatMap hesc s r (by simp only [List.length_cons, List.length_nil] at hfuel; omega)

/-- A quoted text is read as the text. -/
theorem denotes_text (s : String) : Denotes d 0 (l.quote s).toList (.text s) := by
  intro fuel depth r hfuel hdepth hr
  obtain ⟨fuel, rfl⟩ : ∃ n, fuel = n + 1 := ⟨fuel - 1, by omega⟩
  obtain ⟨cs, hcs, hread⟩ := unquote_quote hl s r (Nat.le_of_lt hfuel)
  rw [hcs, List.cons_append, readValue, skipBlanks_cons (by decide)]
  simp only [hread]

/-! ## Objects -/

omit hl in
/-- Blanks before a member are skipped. -/
theorem readMembers_blanks {fuel depth : Nat} {blanks cs : List Char}
    (h : ∀ c ∈ blanks, isBlank c = true) :
    readMembers d fuel depth (blanks ++ cs) = readMembers d fuel depth cs := by
  cases fuel with
  | zero => rfl
  | succ fuel => rw [readMembers, readMembers, skipBlanks_append h]

/-- A member as it is written. -/
def Layout.memberText (l : Layout) (member : String × String) : List Char :=
  (l.quote member.1).toList ++ (l.memberSeparator.toList ++ member.2.toList)

omit hl in
/-- A member is its name, the separator and its value. -/
theorem memberText_eq (name value : String) :
    (l.quote name).toList ++ (l.memberSeparator.toList ++ value.toList) =
      l.memberText (name, value) := rfl

/-- A member in front of something that ends a value is taken apart into its name and its value. -/
theorem memberText_reads {room fuel depth : Nat} {member : String × String} {v : Json}
    {r : List Char} (hvalue : Denotes d room member.2.toList v)
    (hfuel : (l.memberText member).length ≤ fuel) (hdepth : depth + room ≤ d.maxDepth)
    (hr : Ends r) :
    ∃ cs after, l.memberText member ++ r = '"' :: cs ∧
      unquote d.surrogates fuel cs = some (member.1, ':' :: after) ∧
      readValue d fuel depth after = .ok (v, r) := by
  obtain ⟨blanks, hsep, hblanks⟩ := hl.member
  unfold Layout.memberText at hfuel ⊢
  rw [hsep] at hfuel ⊢
  simp only [List.length_append, List.length_cons] at hfuel
  have hquoted : (l.quote member.1).toList.length ≤ fuel + 1 := by omega
  obtain ⟨cs, hcs, hname⟩ := unquote_quote hl member.1
    (':' :: (blanks ++ member.2.toList ++ r)) hquoted
  refine ⟨_, _, ?_, hname, ?_⟩
  · rw [hcs]
    simp only [List.cons_append, List.append_assoc]
  · exact hvalue.blanks hblanks fuel depth r (by rw [List.length_append]; omega) hdepth hr

/-- The last member. -/
theorem readMembers_last {room fuel depth : Nat} {member : String × String} {v : Json}
    {r : List Char} (hvalue : Denotes d room member.2.toList v)
    (hfuel : (l.memberText member).length ≤ fuel) (hdepth : depth + room ≤ d.maxDepth) :
    readMembers d (fuel + 1) depth (l.memberText member ++ '\x7d' :: r) =
      .ok ([(member.1, v)], r) := by
  obtain ⟨cs, after, hcs, hname, hread⟩ :=
    memberText_reads hl hvalue hfuel hdepth (ends_cons (r := r) (.inr (.inl rfl)))
  rw [hcs, readMembers, skipBlanks_cons (by decide)]
  simp only [hname]
  rw [skipBlanks_cons (by decide)]
  simp only [hread]
  rw [skipBlanks_cons (by decide)]
  rfl

/-- A member that others follow. -/
theorem readMembers_more {room fuel depth : Nat} {member : String × String} {v : Json}
    {r : List Char} (hvalue : Denotes d room member.2.toList v)
    (hfuel : (l.memberText member).length ≤ fuel) (hdepth : depth + room ≤ d.maxDepth) :
    readMembers d (fuel + 1) depth (l.memberText member ++ ',' :: r) =
      (readMembers d fuel depth r).map fun (ms, r) => ((member.1, v) :: ms, r) := by
  obtain ⟨cs, after, hcs, hname, hread⟩ :=
    memberText_reads hl hvalue hfuel hdepth (ends_cons (r := r) (.inl rfl))
  rw [hcs, readMembers, skipBlanks_cons (by decide)]
  simp only [hname]
  rw [skipBlanks_cons (by decide)]
  simp only [hread]
  rw [skipBlanks_cons (by decide)]
  rfl

/-- The members of an object as they are written. -/
def Layout.membersText (l : Layout) (written : List (String × String)) : List Char :=
  l.itemSeparator.toList.intercalate (written.map l.memberText)

omit hl in
/-- One member is written by itself. -/
theorem membersText_singleton (w : String × String) :
    l.membersText [w] = l.memberText w := List.intercalate_singleton

omit hl in
/-- Several members are written with the separator between them. -/
theorem membersText_cons_cons (w w' : String × String) (ws : List (String × String)) :
    l.membersText (w :: w' :: ws) =
      l.memberText w ++ (l.itemSeparator.toList ++ l.membersText (w' :: ws)) := by
  unfold Layout.membersText
  simp only [List.map_cons, List.intercalate_cons_cons, List.append_assoc]

/-- Members begin with a quotation mark. -/
theorem membersText_eq_cons {written : List (String × String)} (hne : written ≠ []) :
    ∃ cs, l.membersText written = '"' :: cs := by
  obtain ⟨esc, -, hquote⟩ := hl.quote
  obtain ⟨w, ws, rfl⟩ := List.exists_cons_of_ne_nil hne
  cases ws with
  | nil =>
    rw [membersText_singleton, Layout.memberText, hquote]
    exact ⟨_, rfl⟩
  | cons w' ws =>
    rw [membersText_cons_cons, Layout.memberText, hquote]
    exact ⟨_, rfl⟩

/-- The induction is on the members that are left, of which there is at least one. -/
theorem readMembers_membersText {room fuel depth : Nat} {written : List (String × String)}
    {members : List (String × Json)}
    (h : List.Forall₂ (fun w m => w.1 = m.1 ∧ Denotes d room w.2.toList m.2) written members)
    (hne : written ≠ []) (r : List Char) (hfuel : (l.membersText written).length < fuel)
    (hdepth : depth + room ≤ d.maxDepth) :
    readMembers d fuel depth (l.membersText written ++ '\x7d' :: r) = .ok (members, r) := by
  obtain ⟨blanks, hsep, hblanks⟩ := hl.item
  induction h generalizing fuel with
  | nil => exact absurd rfl hne
  | @cons w m ws ms hwm hrest ih =>
    obtain ⟨hname, hvalue⟩ := hwm
    obtain ⟨fuel, rfl⟩ : ∃ n, fuel = n + 1 := ⟨fuel - 1, by omega⟩
    cases hrest with
    | nil =>
      rw [membersText_singleton] at hfuel ⊢
      rw [readMembers_last hl hvalue (by omega) hdepth, hname]
    | @cons w' m' ws ms hwm' hrest =>
      rw [membersText_cons_cons, hsep] at hfuel ⊢
      simp only [List.length_append, List.length_cons] at hfuel
      simp only [List.append_assoc, List.cons_append]
      rw [readMembers_more hl hvalue (by omega) hdepth, readMembers_blanks hblanks,
        ih (List.cons_ne_nil _ _) (by omega), hname]
      rfl

/-- An object denotes what its members denote, and opens one container more. -/
theorem denotes_object {room : Nat} {written : List (String × String)}
    {members : List (String × Json)}
    (h : List.Forall₂ (fun w m => w.1 = m.1 ∧ Denotes d room w.2.toList m.2) written members)
    (hne : written ≠ []) : Denotes d (room + 1) (l.object written).toList (.object members) := by
  intro fuel depth r hfuel hdepth hr
  have htext : (l.object written).toList = '\x7b' :: (l.membersText written ++ ['\x7d']) := by
    unfold Layout.object Layout.membersText
    simp [String.toList_intercalate, Function.comp_def, memberText_eq]
  rw [htext] at hfuel ⊢
  obtain ⟨fuel, rfl⟩ : ∃ n, fuel = n + 1 := ⟨fuel - 1, by omega⟩
  simp only [List.length_cons, List.length_append, List.length_nil] at hfuel
  have hshort : (l.membersText written).length < fuel := by omega
  have hread := readMembers_membersText hl h hne r hshort
    (show depth + 1 + room ≤ d.maxDepth by omega)
  obtain ⟨cs, hcs⟩ := membersText_eq_cons hl hne
  rw [hcs] at hread ⊢
  simp only [List.cons_append, List.append_assoc, List.nil_append] at hread ⊢
  rw [readValue, skipBlanks_cons (by decide)]
  simp only [skipBlanks_cons (show isBlank '"' = false by decide)]
  change (if d.maxDepth ≤ depth then _ else _) = _
  rw [if_neg (by omega), hread]
  rfl

omit hl in
/-- A text that denotes a value is a whole document. -/
theorem read_of_denotes {room : Nat} {s : String} {v : Json} (h : Denotes d room s.toList v)
    (hroom : room ≤ d.maxDepth) : Json.read d s = .ok v := by
  have hread := h (s.toList.length + 1) 0 [] (by omega) (by omega) ends_nil
  rw [List.append_nil] at hread
  unfold Json.read
  dsimp only
  rw [hread]
  rfl

end EventRelay.Json
