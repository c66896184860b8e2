import EventRelay.Json.Text
import Mathlib.Tactic.IntervalCases

/-!
# Strings in quotes are read back

A quoted string is read as the string it was made from, whatever follows it in the document.  The
reader looks at one written character at a time, so it is enough that each character of the
alphabet is read back where it stands (`Spells`).

* `spells_escape`, `spells_escapeAscii`: the alphabet of all of Unicode, and the ASCII alphabet, in
  which a character outside the basic plane is a pair of escapes.
* `unquote_flatMap`: what is spelled by an alphabet is read back up to the closing quote.
-/

namespace EventRelay.Json

variable {policy : Surrogates} {esc : Char → List Char}

/-- Each character that the alphabet writes is read back, whatever follows it. -/
def Spells (policy : Surrogates) (esc : Char → List Char) : Prop :=
  ∀ c r, Piece.next policy (esc c ++ r) = .char c r

/-! ## Escapes by code unit -/

/-- A hexadecimal digit has its value. -/
theorem hexValue?_hexDigit {n : Nat} (h : n < 16) : hexValue? (hexDigit n) = some n := by
  interval_cases n <;> decide

/-- An escaped unit is read as the unit. -/
theorem unitAtFront?_unitEscape {n : Nat} (h : n < 65536) (r : List Char) :
    unitAtFront? (unitEscape n ++ r) = some (n, r) := by
  have hdigit (m : Nat) : hexValue? (hexDigit (m % 16)) = some (m % 16) :=
    hexValue?_hexDigit (Nat.mod_lt _ (by decide))
  have hsum : 4096 * (n / 4096 % 16) + 256 * (n / 256 % 16) + 16 * (n / 16 % 16) + n % 16 = n := by
    omega
  change (unit? _ _ _ _).map (·, r) = _
  unfold unit?
  simp only [hdigit, hsum, Option.map_some]

/-- A piece that begins with an escaped unit is that unit. -/
theorem next_of_unitAtFront? {n : Nat} {r after : List Char}
    (h : unitAtFront? ('\\' :: r) = some (n, after)) :
    Piece.next policy ('\\' :: r) = .ofUnit policy n after := by
  simp only [Piece.next, h]

/-- No character is half of a pair. -/
theorem not_half (c : Char) : opensPair c.toNat = false ∧ closesPair c.toNat = false := by
  have hvalid : c.toNat < 55296 ∨ 57343 < c.toNat ∧ c.toNat < 1114112 := c.valid
  unfold opensPair closesPair
  simp only [Bool.and_eq_false_iff, decide_eq_false_iff_not]
  omega

/-- The escape of a character of the basic plane is read as that character. -/
theorem next_unitEscape {c : Char} (h : c.toNat < 65536) (r : List Char) :
    Piece.next policy (unitEscape c.toNat ++ r) = .char c r := by
  obtain ⟨hopens, hcloses⟩ := not_half c
  refine (next_of_unitAtFront? (unitAtFront?_unitEscape h r)).trans ?_
  unfold Piece.ofUnit
  simp [hopens, hcloses]

/-- A pair of escapes is read as the character that it is made from. -/
theorem next_pair {c : Char} (h : 65536 ≤ c.toNat) (r : List Char) :
    Piece.next policy (unitEscape (55296 + (c.toNat - 65536) / 1024) ++
      (unitEscape (56320 + (c.toNat - 65536) % 1024) ++ r)) = .char c r := by
  have hvalid : c.toNat < 55296 ∨ 57343 < c.toNat ∧ c.toNat < 1114112 := c.valid
  have hopens : opensPair (55296 + (c.toNat - 65536) / 1024) = true := by
    unfold opensPair
    simp only [Bool.and_eq_true, decide_eq_true_eq]
    omega
  have hcloses : closesPair (56320 + (c.toNat - 65536) % 1024) = true := by
    unfold closesPair
    simp only [Bool.and_eq_true, decide_eq_true_eq]
    omega
  have hcode : 65536 + (55296 + (c.toNat - 65536) / 1024 - 55296) * 1024 +
      (56320 + (c.toNat - 65536) % 1024 - 56320) = c.toNat := by
    omega
  have hsecond := unitAtFront?_unitEscape (n := 56320 + (c.toNat - 65536) % 1024) (by omega) r
  refine (next_of_unitAtFront? (unitAtFront?_unitEscape (by omega) _)).trans ?_
  unfold Piece.ofUnit
  simp only [hopens, if_true, hsecond, hcloses, hcode, Char.ofNat_toNat]

/-! ## The alphabets -/

/-- What every alphabet escapes is read back. -/
theorem next_controlEscape {c : Char} {cs : List Char} (h : controlEscape? c = some cs)
    (r : List Char) : Piece.next policy (cs ++ r) = .char c r := by
  unfold controlEscape? at h
  split_ifs at h with hquote hslash hline hreturn htab hback hfeed hcontrol
  all_goals cases h
  · subst hquote; rfl
  · subst hslash; rfl
  · subst hline; rfl
  · subst hreturn; rfl
  · subst htab; rfl
  · obtain rfl : c = '\x08' := Char.toNat_inj.mp hback
    rfl
  · obtain rfl : c = '\x0c' := Char.toNat_inj.mp hfeed
    rfl
  · exact next_unitEscape (by omega) r

/-- What no alphabet has to escape stands for itself. -/
theorem next_plain {c : Char} (h : controlEscape? c = none) (r : List Char) :
    Piece.next policy (c :: r) = .char c r := by
  unfold controlEscape? at h
  split_ifs at h with hquote hslash hline hreturn htab hback hfeed hcontrol
  unfold Piece.next
  split
  · contradiction
  · rename_i heq
    exact absurd (List.cons.inj heq).1 hquote
  · rename_i heq
    exact absurd (List.cons.inj heq).1 hslash
  · rename_i heq
    cases heq
    exact if_neg hcontrol

/-- What is escaped in the alphabet of all characters is read back. -/
theorem spells_escape : Spells policy escape := by
  intro c r
  unfold escape
  rcases hcontrol : controlEscape? c with _ | cs
  · exact next_plain hcontrol r
  · exact next_controlEscape hcontrol r

/-- What is escaped in the alphabet of ASCII is read back. -/
theorem spells_escapeAscii : Spells policy escapeAscii := by
  intro c r
  unfold escapeAscii
  rcases hcontrol : controlEscape? c with _ | cs
  · dsimp only
    split_ifs with hascii hbasic
    · exact next_plain hcontrol r
    · exact next_unitEscape hbasic r
    · rw [List.append_assoc]
      exact next_pair (Nat.le_of_not_lt hbasic) r
  · exact next_controlEscape hcontrol r

/-! ## Whole strings -/

/-- The induction is on the characters that are left; `seen` holds those read before. -/
theorem unquoteFrom_flatMap (h : Spells policy esc) (cs seen r : List Char) {fuel : Nat}
    (hfuel : cs.length < fuel) :
    unquoteFrom policy fuel seen (cs.flatMap esc ++ '"' :: r) =
      some (String.ofList (seen.reverse ++ cs), r) := by
  induction cs generalizing seen fuel with
  | nil =>
    obtain ⟨fuel, rfl⟩ : ∃ n, fuel = n + 1 := ⟨fuel - 1, by simp at hfuel; omega⟩
    simp [unquoteFrom, Piece.next]
  | cons c cs ih =>
    obtain ⟨fuel, rfl⟩ : ∃ n, fuel = n + 1 := ⟨fuel - 1, by simp at hfuel; omega⟩
    have hrest : cs.length < fuel := by simpa using hfuel
    rw [List.flatMap_cons, List.append_assoc, unquoteFrom, h c]
    dsimp only
    rw [ih (c :: seen) hrest]
    simp

/-- What an alphabet spells is read back up to the closing quote. -/
theorem unquote_flatMap (h : Spells policy esc) (s : String) (r : List Char) {fuel : Nat}
    (hfuel : s.toList.length < fuel) :
    unquote policy fuel (s.toList.flatMap esc ++ '"' :: r) = some (s, r) := by
  unfold unquote
  rw [unquoteFrom_flatMap h s.toList [] r hfuel]
  simp

/-- An alphabet that spells writes no character as nothing. -/
theorem Spells.length_le (h : Spells policy esc) (cs : List Char) :
    cs.length ≤ (cs.flatMap esc).length := by
  have hpos (c : Char) : 1 ≤ (esc c).length := by
    by_contra hlt
    have hnil : esc c = [] := List.eq_nil_of_length_eq_zero (by omega)
    have := h c []
    rw [hnil] at this
    cases this
  induction cs with
  | nil => rfl
  | cons c cs ih =>
    have := hpos c
    rw [List.flatMap_cons, List.length_append, List.length_cons]
    omega

end EventRelay.Json
