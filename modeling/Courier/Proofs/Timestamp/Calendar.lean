import Courier.Timestamp.Calendar

/-!
# Days and dates

The date of a day is found from the era of the day, the year within the era and the day within
the year, both counted from March. The year is found by a division that allows for the leap days
of four, of a hundred and of four hundred years; that it is the right one is what the day of the
year being one of 366 days says, and the last of them only in a leap year.

## Main definitions

* `Date.Splits`: a day as era, year and day of the year.

## Main results

* `Date.toDay_ofDay`: the date of a day has the number of the day.
* `Date.isValid_ofDay`: the calendar has the date of every day.
* `Date.year_ofDay`: the years of the days that a timestamp can have.
-/

namespace Courier.Date

/-! ### Years of an era -/

/-- The year that begins in March is a day longer than others: a leap day is its last day. -/
def EndsLong (year : Int) : Prop :=
  (year + 1) % 4 = 0 ∧ ((year + 1) % 100 ≠ 0 ∨ (year + 1) % 400 = 0)

instance : DecidablePred EndsLong := fun year =>
  inferInstanceAs (Decidable ((year + 1) % 4 = 0 ∧ ((year + 1) % 100 ≠ 0 ∨ (year + 1) % 400 = 0)))

/-- The year within an era that has day `d` of the era. -/
def yearOf (d : Int) : Int :=
  (d - d / 1460 + d / 36524 - d / 146096) / 365

/-- The day within its year of day `d` of an era. -/
def dayOf (d : Int) : Int :=
  d - (365 * yearOf d + yearOf d / 4 - yearOf d / 100)

section

variable {d y : Int} (first : 0 ≤ d) (last : d < 146096)
  (low : 365 * y ≤ d - d / 1460 + d / 36524) (high : d - d / 1460 + d / 36524 ≤ 365 * y + 364)

include first last low high

theorem year_bounds :
    0 ≤ y ∧ y < 400 ∧ y / 100 = d / 36524 ∧ y / 4 ≤ d / 1460 ∧ d / 1460 ≤ (y + 1) / 4 := by
  obtain ⟨c, leaps⟩ : ∃ c, c = d / 1460 := ⟨_, rfl⟩
  obtain ⟨k, century⟩ : ∃ k, k = d / 36524 := ⟨_, rfl⟩
  rw [← leaps, ← century] at low high ⊢
  have few : 0 ≤ k ∧ k ≤ 3 := by omega
  have some : 0 ≤ c ∧ c ≤ 100 := by omega
  have range : 0 ≤ y ∧ y < 400 := by omega
  -- Taking out the leap days leaves 36500 days of a century and 1460 of four years.
  have begins : 100 * k ≤ y := by omega
  have ends : y < 100 * k + 100 := by omega
  have before : y / 4 ≤ c := by omega
  have after : c ≤ (y + 1) / 4 := by omega
  omega

/-- The year has the day, as its 366th only when it ends with a leap day. -/
theorem day_bounds :
    365 * y + y / 4 - y / 100 ≤ d ∧ d ≤ 365 * y + y / 4 - y / 100 + 365 ∧
      (d = 365 * y + y / 4 - y / 100 + 365 → EndsLong y) := by
  obtain ⟨-, -, century, before, after⟩ := year_bounds first last low high
  have next : (y + 1) / 4 ≤ y / 4 + 1 := by omega
  refine ⟨by omega, by omega, fun full => ⟨by omega, ?_⟩⟩
  by_cases round : (y + 1) % 100 = 0
  · -- The last year of a century ends before the day unless the century is the last one.
    have close : y = 100 * (d / 36524) + 99 := by omega
    omega
  · exact .inl round

end

theorem dayOf_bounds {d : Int} (first : 0 ≤ d) (last : d < 146097) :
    0 ≤ yearOf d ∧ yearOf d < 400 ∧ 0 ≤ dayOf d ∧ dayOf d ≤ 365 ∧
      (dayOf d = 365 → EndsLong (yearOf d)) := by
  -- The last day of an era is the leap day that the division takes back.
  by_cases final : d = 146096
  · subst final
    exact ⟨by decide, by decide, by decide, by decide, fun _ => by decide⟩
  · have whole : d < 146096 := by omega
    have none : d / 146096 = 0 := by omega
    have low : 365 * yearOf d ≤ d - d / 1460 + d / 36524 := by
      rw [yearOf, none]
      omega
    have high : d - d / 1460 + d / 36524 ≤ 365 * yearOf d + 364 := by
      rw [yearOf, none]
      omega
    obtain ⟨early, late, -⟩ := year_bounds first whole low high
    obtain ⟨least, most, long⟩ := day_bounds first whole low high
    unfold dayOf
    exact ⟨early, late, by omega, by omega, fun full => long (by omega)⟩

/-! ### Days and their dates -/

/-- Day `n` is day `day` of year `year` of era `era`, all counted from zero and from March. -/
structure Splits (n era year day : Int) : Prop where
  sum : n + 719468 = era * 146097 + (365 * year + year / 4 - year / 100 + day)
  year_nonneg : 0 ≤ year
  year_lt : year < 400
  day_nonneg : 0 ≤ day
  day_le : day ≤ 365
  long : day = 365 → EndsLong year

/-- The date of a day of a year of an era. -/
def ofMarch (era year day : Int) : Date :=
  let monthFromMarch := (5 * day + 2) / 153
  let month := if monthFromMarch < 10 then monthFromMarch + 3 else monthFromMarch - 9
  let year := year + era * 400
  ⟨if month ≤ 2 then year + 1 else year, month.toNat,
    (day - (153 * monthFromMarch + 2) / 5 + 1).toNat⟩

theorem ofDay_eq (n : Int) :
    ∃ era year day, Splits n era year day ∧ ofDay n = ofMarch era year day := by
  have first : 0 ≤ (n + 719468) % 146097 := by omega
  have last : (n + 719468) % 146097 < 146097 := by omega
  obtain ⟨least, most, early, late, long⟩ := dayOf_bounds first last
  refine ⟨(n + 719468) / 146097, _, _, ⟨?_, least, most, early, late, long⟩, rfl⟩
  unfold dayOf
  omega

/-- Every month but February is as long as it is from its first day to that of the next one. -/
theorem daysIn_month {m : Int} (first : 0 ≤ m) (last : m ≤ 10) (year : Int) :
    (daysIn year (if m < 10 then m + 3 else m - 9).toNat : Int) =
      (153 * (m + 1) + 2) / 5 - (153 * m + 2) / 5 := by
  have month : m = 0 ∨ m = 1 ∨ m = 2 ∨ m = 3 ∨ m = 4 ∨ m = 5 ∨ m = 6 ∨ m = 7 ∨ m = 8 ∨ m = 9 ∨
      m = 10 := by omega
  rcases month with rfl | rfl | rfl | rfl | rfl | rfl | rfl | rfl | rfl | rfl | rfl <;> rfl

section

variable {n era year day : Int} (splits : Splits n era year day)

include splits

theorem Splits.toDay : (ofMarch era year day).toDay = n := by
  obtain ⟨sum, least, most, early, late, -⟩ := splits
  obtain ⟨m, months⟩ : ∃ m, m = (5 * day + 2) / 153 := ⟨_, rfl⟩
  have range : 0 ≤ m ∧ m ≤ 11 := by omega
  have begun : (153 * m + 2) / 5 ≤ day := by omega
  have sameEra : (year + era * 400) / 400 = era := by omega
  have sameYear : (year + era * 400) % 400 = year := by omega
  have sameDay : ((day - (153 * m + 2) / 5 + 1).toNat : Int) = day - (153 * m + 2) / 5 + 1 := by
    omega
  unfold ofMarch Date.toDay
  simp only [← months]
  by_cases march : m < 10
  · have month : ¬ m + 3 ≤ 2 := by omega
    have number : ¬ (m + 3).toNat ≤ 2 := by omega
    have sameMonth : (((m + 3).toNat : Int) + 9) % 12 = m := by omega
    rw [if_pos march, if_neg month, if_neg number, sameEra, sameYear, sameMonth, sameDay]
    omega
  · have month : m - 9 ≤ 2 := by omega
    have number : (m - 9).toNat ≤ 2 := by omega
    have sameMonth : (((m - 9).toNat : Int) + 9) % 12 = m := by omega
    rw [if_neg march, if_pos month, if_pos number, Int.add_sub_cancel, sameEra, sameYear, sameMonth,
      sameDay]
    omega

theorem Splits.isValid : (ofMarch era year day).isValid = true := by
  obtain ⟨-, -, -, early, late, long⟩ := splits
  obtain ⟨m, months⟩ : ∃ m, m = (5 * day + 2) / 153 := ⟨_, rfl⟩
  unfold ofMarch Date.isValid
  simp only [← months, decide_eq_true_eq]
  refine ⟨by omega, ?_⟩
  by_cases last : m = 11
  · subst last
    have leap : day = 365 → isLeap (year + era * 400 + 1) = true := by
      intro full
      obtain ⟨fourth, century⟩ := long full
      simp only [isLeap, decide_eq_true_eq]
      omega
    change _ ≤ if isLeap (year + era * 400 + 1) then 29 else 28
    split
    · omega
    · next short =>
      have other : day ≠ 365 := fun full => short (leap full)
      omega
  · have length := daysIn_month (by omega : 0 ≤ m) (by omega : m ≤ 10)
      (if (if m < 10 then m + 3 else m - 9) ≤ 2 then year + era * 400 + 1 else year + era * 400)
    omega

/-- The years in which a timestamp can lie. -/
theorem Splits.year_mem (least : -96465292 ≤ n) (greatest : n ≤ 95026236) :
    -262143 ≤ (ofMarch era year day).year ∧ (ofMarch era year day).year ≤ 262142 := by
  obtain ⟨sum, first, last, early, late, -⟩ := splits
  obtain ⟨m, months⟩ : ∃ m, m = (5 * day + 2) / 153 := ⟨_, rfl⟩
  have eras : -656 ≤ era ∧ era ≤ 655 := by omega
  -- The first year is entered in January, when the year that began in March is the one before.
  have begins : era = -656 → 257 ≤ year ∨ (year = 256 ∧ 10 ≤ m) := by omega
  have ends : era = 655 → year ≤ 141 ∨ (year = 142 ∧ m < 10) := by omega
  unfold ofMarch
  simp only [← months]
  by_cases march : m < 10
  · have month : ¬ m + 3 ≤ 2 := by omega
    rw [if_pos march, if_neg month]
    omega
  · have month : m - 9 ≤ 2 := by omega
    rw [if_neg march, if_pos month]
    omega

end

/-- The date of a day has the number of the day. -/
theorem toDay_ofDay (n : Int) : (ofDay n).toDay = n := by
  obtain ⟨era, year, day, splits, date⟩ := ofDay_eq n
  rw [date]
  exact splits.toDay

/-- The calendar has the date of every day. -/
theorem isValid_ofDay (n : Int) : (ofDay n).isValid = true := by
  obtain ⟨era, year, day, splits, date⟩ := ofDay_eq n
  rw [date]
  exact splits.isValid

theorem bounds_of_isValid {d : Date} (valid : d.isValid = true) :
    (1 ≤ d.month ∧ d.month ≤ 12) ∧ 1 ≤ d.day ∧ d.day ≤ 31 := by
  obtain ⟨first, last⟩ := of_decide_eq_true valid
  unfold daysIn at last
  split at last <;> try omega
  split at last <;> omega

/-- The years of the days that a timestamp can have. -/
theorem year_ofDay {n : Int} (least : -96465292 ≤ n) (greatest : n ≤ 95026236) :
    -262143 ≤ (ofDay n).year ∧ (ofDay n).year ≤ 262142 := by
  obtain ⟨era, year, day, splits, date⟩ := ofDay_eq n
  rw [date]
  exact splits.year_mem least greatest

end Courier.Date
