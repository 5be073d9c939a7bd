import Mathlib.Order.Monotone.Basic
import NewsService.Calendar.Date

/-!
# Days and dates

Within an era of 400 years, the year of a day is found by a division that makes up for the leap days
before it. The years of an era are few, and the division is monotone, so it is enough to look at the
first and the last day of each year. Main statement: the date of a day has the number of the day.
-/

namespace NewsService.Date

/-! ## Days of an era -/

/-- The first day of a year, both counted from the beginning of an era. -/
def firstDay (year : Nat) : Nat :=
  365 * year + year / 4 - year / 100

/-- The year of a day, both counted from the beginning of an era. -/
def yearOfEra (day : Nat) : Nat :=
  (day - day / 1460 + day / 36524 - day / 146096) / 365

/-- The month of a day of a year, which begins with March. -/
def monthFromMarch (day : Nat) : Nat :=
  (5 * day + 2) / 153

variable {day : Nat}

theorem yearOfEra_lt (h : day < 146097) : yearOfEra day < 400 := by
  unfold yearOfEra
  omega

theorem yearOfEra_mono : Monotone yearOfEra := by
  refine monotone_nat_of_le_succ fun day => ?_
  unfold yearOfEra
  refine Nat.div_le_div_right ?_
  omega

theorem yearOfEra_firstDay : ∀ year < 400, yearOfEra (firstDay year) = year := by
  decide +kernel

theorem yearOfEra_lastDay : ∀ year < 399, yearOfEra (firstDay (year + 1) - 1) = year := by
  decide +kernel

theorem firstDay_yearOfEra_le (h : day < 146097) : firstDay (yearOfEra day) ≤ day := by
  have hyear := yearOfEra_lt h
  refine Nat.le_of_not_lt fun hlt => ?_
  -- a day before the first one of its year would be in the year before
  cases hy : yearOfEra day with
  | zero =>
    rw [hy] at hlt
    exact absurd hlt (Nat.not_lt_zero _)
  | succ year =>
    rw [hy] at hlt hyear
    have hle : yearOfEra day ≤ yearOfEra (firstDay (year + 1) - 1) := yearOfEra_mono (by omega)
    rw [yearOfEra_lastDay year (by omega)] at hle
    omega

theorem lt_firstDay_yearOfEra (h : day < 146097) : day < firstDay (yearOfEra day) + 366 := by
  have hyear := yearOfEra_lt h
  refine Nat.lt_of_not_le fun hle => ?_
  by_cases hlast : yearOfEra day + 1 < 400
  · have hnext : firstDay (yearOfEra day + 1) ≤ day := by
      unfold firstDay at hle ⊢
      omega
    have hmono := yearOfEra_mono hnext
    rw [yearOfEra_firstDay _ hlast] at hmono
    omega
  · have hlast : yearOfEra day = 399 := by omega
    rw [hlast] at hle
    have hlong : firstDay 399 + 366 = 146097 := by decide
    omega

/-! ## Dates -/

/-- The date of a day, by its era, its year and its month. -/
theorem ofDayNumber_eq (n : Int) :
    ∃ (era : Int) (year day : Nat), year < 400 ∧ day < 366 ∧
      n + 719468 = era * 146097 + (firstDay year + day : Nat) ∧
      ofDayNumber n =
        ⟨era * 400 + year + if monthFromMarch day < 10 then 0 else 1,
          if monthFromMarch day < 10 then monthFromMarch day + 3 else monthFromMarch day - 9,
          day - (153 * monthFromMarch day + 2) / 5 + 1⟩ := by
  have hday : ((n + 719468) % 146097).toNat < 146097 := by omega
  have hfirst := firstDay_yearOfEra_le hday
  have hlast := lt_firstDay_yearOfEra hday
  refine ⟨(n + 719468) / 146097, yearOfEra ((n + 719468) % 146097).toNat,
    ((n + 719468) % 146097).toNat - firstDay (yearOfEra ((n + 719468) % 146097).toNat),
    yearOfEra_lt hday, by omega, by omega, ?_⟩
  have hmonth : ∀ m : Nat, m < 12 →
      (if (if m < 10 then m + 3 else m - 9) ≤ 2 then (1 : Int) else 0) =
        if m < 10 then 0 else 1 := by
    intro m hm
    split <;> split <;> omega
  unfold ofDayNumber
  rw [← hmonth]
  · rfl
  · unfold monthFromMarch
    omega

/-- The days before a month, which begin no later than the day. -/
theorem daysBefore_le (day : Nat) : (153 * monthFromMarch day + 2) / 5 ≤ day := by
  unfold monthFromMarch
  omega

theorem monthFromMarch_lt (h : day < 366) : monthFromMarch day < 12 := by
  unfold monthFromMarch
  omega

/-- The date of a day has the number of the day. -/
theorem dayNumber_ofDayNumber (n : Int) : (ofDayNumber n).dayNumber = n := by
  obtain ⟨era, year, day, hyear, hday, hn, hdate⟩ := ofDayNumber_eq n
  have hbefore := daysBefore_le day
  have hmonth := monthFromMarch_lt hday
  generalize monthFromMarch day = m at hdate hbefore hmonth
  unfold firstDay at hn
  rw [hdate]
  unfold dayNumber
  dsimp only
  by_cases hm : m < 10
  · have hlate : ¬ m + 3 ≤ 2 := by omega
    have hera : (era * 400 + (year : Int) + 0) / 400 = era := by omega
    have hrest : ((era * 400 + (year : Int) + 0) % 400).toNat = year := by omega
    simp only [if_pos hm, if_neg hlate, hera, hrest, Nat.add_sub_cancel]
    omega
  · have hearly : m - 9 ≤ 2 := by omega
    have hera : (era * 400 + (year : Int) + 1 - 1) / 400 = era := by omega
    have hrest : ((era * 400 + (year : Int) + 1 - 1) % 400).toNat = year := by omega
    simp only [if_neg hm, if_pos hearly, hera, hrest]
    omega

theorem ofDayNumber_inj {m n : Int} : ofDayNumber m = ofDayNumber n ↔ m = n := by
  constructor
  · intro h
    rw [← dayNumber_ofDayNumber m, h, dayNumber_ofDayNumber]
  · rintro rfl
    rfl

end NewsService.Date
