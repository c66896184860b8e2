import EventRelay.Time.Limits
import Mathlib.Tactic.IntervalCases

/-!
# Days of the calendar

A count of days within the years 1 to 9999 is a date of the calendar.  The day of an era is told
apart into whole centuries, whole groups of four years, whole years and a day (`PartsOfEra`); the
last day of a year that begins in March is a leap day, so it is there only in leap years.

* `partsOfEra`: the arithmetic on days of an era finds those parts.
* `ofDays_calendar`: the date of a count of days is in the calendar.
-/

namespace EventRelay

namespace Date

/-- A day of an era: in which year it lies, and which day of that year it is; years begin in
March. -/
structure PartsOfEra (day year century group single rest : Int) : Prop where
  day_eq : day = 36524 * century + 1461 * group + 365 * single + rest
  year_eq : year = 100 * century + 4 * group + single
  century_bounds : 0 ≤ century ∧ century ≤ 3
  group_bounds : 0 ≤ group ∧ group ≤ 24
  single_bounds : 0 ≤ single ∧ single ≤ 3
  rest_bounds : 0 ≤ rest ∧ rest ≤ 365
  /-- The last day comes only before a first of March in a leap year. -/
  leap : rest = 365 → single = 3 ∧ (group ≤ 23 ∨ century = 3)

/-- The year of the era to which a day of it belongs. -/
def yearOfEra (day : Int) : Int := (day - day / 1460 + day / 36524 - day / 146096) / 365

/-- A day of an era lies in the year that is computed for it. -/
theorem partsOfEra {day : Int} (h0 : 0 ≤ day) (h1 : day ≤ 146096) :
    ∃ century group single rest,
      PartsOfEra day (yearOfEra day) century group single rest := by
  by_cases hlast : day = 146096
  · subst hlast
    exact ⟨3, 24, 3, 365, by decide, by decide, by decide, by decide, by decide, by decide,
      by decide⟩
  obtain ⟨c, hc⟩ : ∃ c, c = day / 36524 := ⟨_, rfl⟩
  obtain ⟨g, hg⟩ : ∃ g, g = (day - 36524 * c) / 1461 := ⟨_, rfl⟩
  obtain ⟨k, hk⟩ : ∃ k, k = day - 36524 * c - 1461 * g := ⟨_, rfl⟩
  have hcentury : 0 ≤ c ∧ c ≤ 3 := by omega
  have hgroup : 0 ≤ g ∧ g ≤ 24 := by omega
  have hrest : 0 ≤ k ∧ k ≤ 1460 := by omega
  have hday : day = 36524 * c + 1461 * g + k := by omega
  have hera : day / 146096 = 0 := by omega
  -- leap days are counted off by 1460 days, so the last ones of a century come too soon
  have hgroups : day / 1460 = 25 * c + g + (24 * c + g + k) / 1460 := by omega
  have hyear : yearOfEra day = 100 * c + 4 * g + (k - (24 * c + g + k) / 1460) / 365 := by
    unfold yearOfEra
    rw [hgroups, ← hc, hera]
    omega
  have hsingle : 0 ≤ (k - (24 * c + g + k) / 1460) / 365 ∧
      (k - (24 * c + g + k) / 1460) / 365 ≤ 3 := by omega
  rw [hyear]
  refine ⟨c, g, (k - (24 * c + g + k) / 1460) / 365,
    k - 365 * ((k - (24 * c + g + k) / 1460) / 365), by omega, rfl, hcentury, hgroup, hsingle,
    ?_, ?_⟩
  · omega
  · omega

/-- Every fourth year is a leap year, but of the centuries only every fourth one. -/
theorem isLeap_iff (year : Nat) :
    isLeap year = true ↔ year % 4 = 0 ∧ (year % 100 ≠ 0 ∨ year % 400 = 0) := by
  unfold isLeap
  simp

/-- The day of a month is one of that month, if the last one of February comes only in leap
years. -/
theorem day_le_daysIn {fromMarch rest : Int} {year : Nat} (h0 : 0 ≤ rest) (h1 : rest ≤ 365)
    (hmarch : fromMarch = (5 * rest + 2) / 153)
    (hleap : rest = 365 → isLeap year = true) :
    0 ≤ rest - (153 * fromMarch + 2) / 5 ∧
      rest - (153 * fromMarch + 2) / 5 + 1 ≤
        daysIn year (if fromMarch < 10 then fromMarch + 3 else fromMarch - 9).toNat := by
  have hlow : 0 ≤ fromMarch := by omega
  have hhigh : fromMarch ≤ 11 := by omega
  by_cases hfebruary : fromMarch = 11
  · subst hfebruary
    have hmonth : (if (11 : Int) < 10 then (11 : Int) + 3 else 11 - 9).toNat = 2 := by decide
    rw [hmonth]
    unfold daysIn
    by_cases hlast : rest = 365
    · rw [if_pos rfl, if_pos (hleap hlast)]
      omega
    · have hshort : 28 ≤ (if isLeap year = true then 29 else 28) := by split <;> decide
      rw [if_pos rfl]
      omega
  · -- the other months have their days in every year
    interval_cases fromMarch
    case «11» => exact absurd rfl hfebruary
    all_goals
      norm_num [daysIn]
      omega

/-- A count of days from the first of January of the year 1 to the last of December of the year
9999 is a date of the calendar. -/
theorem ofDays_calendar {days : Int} (h0 : toDays ⟨1, 1, 1⟩ ≤ days)
    (h1 : days < toDays ⟨10000, 1, 1⟩) :
    (ofDays days).isValid = true ∧ (ofDays days).year ≠ 0 := by
  have hfirst : toDays ⟨1, 1, 1⟩ = -719162 := by decide
  have hlast : toDays ⟨10000, 1, 1⟩ = 2932897 := by decide
  rw [hfirst] at h0
  rw [hlast] at h1
  obtain ⟨era, hera⟩ : ∃ era, era = Int.fdiv (days + 719468) 146097 := ⟨_, rfl⟩
  obtain ⟨inEra, hinEra⟩ : ∃ n, n = days + 719468 - era * 146097 := ⟨_, rfl⟩
  have hdiv : era = (days + 719468) / 146097 := by
    rw [hera, Int.fdiv_eq_ediv_of_nonneg _ (by decide)]
  have hbounds : 0 ≤ inEra ∧ inEra ≤ 146096 := by omega
  have heras : 0 ≤ era ∧ era ≤ 24 := by omega
  obtain ⟨century, group, single, rest, hparts⟩ := partsOfEra hbounds.1 hbounds.2
  obtain ⟨year, hyear⟩ : ∃ y, y = yearOfEra inEra := ⟨_, rfl⟩
  rw [← hyear] at hparts
  obtain ⟨hday, hyear', hcentury, hgroup, hsingle, hrest, hleap⟩ := hparts
  have hquarter : year / 4 = 25 * century + group := by omega
  have hhundred : year / 100 = century := by omega
  have hrest' : inEra - (365 * year + year / 4 - year / 100) = rest := by omega
  obtain ⟨fromMarch, hfromMarch⟩ : ∃ m, m = (5 * rest + 2) / 153 := ⟨_, rfl⟩
  have hmonths : 0 ≤ fromMarch ∧ fromMarch ≤ 11 := by omega
  obtain ⟨month, hmonth⟩ : ∃ m, m = if fromMarch < 10 then fromMarch + 3 else fromMarch - 9 :=
    ⟨_, rfl⟩
  obtain ⟨civil, hcivil⟩ : ∃ y, y = year + era * 400 + (if month ≤ 2 then 1 else 0) := ⟨_, rfl⟩
  have hdate : ofDays days =
      ⟨civil.toNat, month.toNat, (rest - (153 * fromMarch + 2) / 5 + 1).toNat⟩ := by
    rw [hcivil, hmonth, hfromMarch, ← hrest', hyear, hinEra, hera]
    rfl
  have hmonth' : 1 ≤ month ∧ month ≤ 12 ∧ (month ≤ 2 ↔ 10 ≤ fromMarch) := by
    rw [hmonth]
    split <;> omega
  have hcivil' : civil = year + era * 400 + 1 ∧ 10 ≤ fromMarch ∨
      civil = year + era * 400 ∧ fromMarch < 10 := by
    rw [hcivil]
    split <;> omega
  -- the last day of a year that begins in March falls into the next civil year
  have hleapYear : rest = 365 → isLeap civil.toNat = true := by
    intro hlast
    rw [isLeap_iff]
    have := hleap hlast
    omega
  have hyears : 1 ≤ civil ∧ civil ≤ 9999 := by omega
  obtain ⟨hday0, hday1⟩ := day_le_daysIn hrest.1 hrest.2 hfromMarch hleapYear
  rw [← hmonth] at hday1
  rw [hdate]
  refine ⟨?_, by change civil.toNat ≠ 0; omega⟩
  simp only [isValid, Bool.and_eq_true, decide_eq_true_eq]
  omega

end Date

end EventRelay
