import PredictionMarketMonitor.CalendarText
import PredictionMarketMonitor.Tilings

set_option autoImplicit false

/-!
# The months of the calendar

Months numbered from January of the year zero tile the days, and the month that a day
number is in has the year and the month of its date.
-/
namespace PredictionMarketMonitor.CivilTime

open Tilings

/-- The first day of a month; month `12 * year + month - 1`. -/
def monthStart (k : ℤ) : ℤ := daysFromCivil (k / 12, k % 12 + 1, 1)

def monthOf (date : ℤ × ℤ × ℤ) : ℤ := 12 * date.1 + date.2.1 - 1

theorem monthStart_lt_succ (k : ℤ) : monthStart k < monthStart (k + 1) := by
  by_cases hlast : k % 12 = 11
  · have hyear : (k + 1) / 12 = k / 12 + 1 := by omega
    have hjanuary : (k + 1) % 12 = 0 := by omega
    rw [monthStart, monthStart, hyear, hjanuary, hlast]
    simp only [daysFromCivil]
    norm_num
  · have hyear : (k + 1) / 12 = k / 12 := by omega
    have hnext : (k + 1) % 12 = k % 12 + 1 := by omega
    rw [monthStart, monthStart, hyear, hnext]
    simp only [daysFromCivil]
    split_ifs <;> omega

theorem monthStart_fields (year : ℤ) {month : ℤ} (h : 1 ≤ month ∧ month ≤ 12) (day : ℤ) :
    monthStart (monthOf (year, month, day)) = daysFromCivil (year, month, 1) := by
  have hyear : (12 * year + month - 1) / 12 = year := by omega
  have hmonth : (12 * year + month - 1) % 12 + 1 = month := by omega
  rw [monthStart, monthOf, hyear, hmonth]

theorem daysFromCivil_first (year month day : ℤ) :
    daysFromCivil (year, month, day) = daysFromCivil (year, month, 1) + (day - 1) := by
  simp only [daysFromCivil]
  ring

theorem civilFromDays_month (days : ℤ) :
    (1 ≤ (civilFromDays days).2.1 ∧ (civilFromDays days).2.1 ≤ 12) ∧ 1 ≤ (civilFromDays days).2.2 := by
  have h0 := Int.emod_nonneg (days + 719468) (by decide : (146097 : ℤ) ≠ 0)
  have h1 := Int.emod_lt_of_pos (days + 719468) (by decide : (0 : ℤ) < 146097)
  have hday := dayOfYear_bounds h0 h1 rfl rfl
  have hmonth : ∀ doy : ℤ, 0 ≤ doy → doy ≤ 365 →
      (1 ≤ (if (5 * doy + 2) / 153 < 10 then (5 * doy + 2) / 153 + 3 else (5 * doy + 2) / 153 - 9) ∧
        (if (5 * doy + 2) / 153 < 10 then (5 * doy + 2) / 153 + 3 else (5 * doy + 2) / 153 - 9) ≤ 12) ∧
        1 ≤ doy - (153 * ((5 * doy + 2) / 153) + 2) / 5 + 1 := by
    intro doy hlow hhigh
    split_ifs <;> omega
  exact hmonth _ hday.1 hday.2

theorem monthStart_le (days : ℤ) : monthStart (monthOf (civilFromDays days)) ≤ days := by
  obtain ⟨hmonth, hday⟩ := civilFromDays_month days
  have hback := daysFromCivil_civilFromDays days
  have hfirst := daysFromCivil_first (civilFromDays days).1 (civilFromDays days).2.1
    (civilFromDays days).2.2
  have hstart : monthStart (monthOf (civilFromDays days)) =
      daysFromCivil ((civilFromDays days).1, (civilFromDays days).2.1, 1) :=
    monthStart_fields (civilFromDays days).1 hmonth (civilFromDays days).2.2
  have hdate : daysFromCivil ((civilFromDays days).1, (civilFromDays days).2.1,
      (civilFromDays days).2.2) = days := hback
  omega

/-- The day without the leap days before it, whose whole years count the year of the era. -/
def leapless (doe : ℤ) : ℤ := doe - doe / 1460 + doe / 36524 - doe / 146096

theorem leapless_mono {a b : ℤ} (h0 : 0 ≤ a) (hab : a ≤ b) (h1 : b < 146097) :
    leapless a ≤ leapless b := by
  have hstep : ∀ doe : ℤ, 0 ≤ doe → doe + 1 < 146097 → leapless doe ≤ leapless (doe + 1) := by
    intro doe hlow hhigh
    unfold leapless
    omega
  induction b, hab using Int.leInduction with
  | base => exact le_refl _
  | succ b hb ih => exact (ih (by omega)).trans (hstep b (by omega) h1)

def yearStart (yoe : ℤ) : ℤ := 365 * yoe + yoe / 4 - yoe / 100

theorem leapless_yearStart {yoe : ℤ} (h0 : 0 ≤ yoe) (h1 : yoe < 400) :
    365 * yoe ≤ leapless (yearStart yoe) := by
  have hfours : yearStart yoe / 1460 ≤ yoe / 4 := by
    unfold yearStart
    omega
  have hcenturies : yoe / 100 ≤ yearStart yoe / 36524 := by
    unfold yearStart
    omega
  have hera : yearStart yoe / 146096 = 0 := by
    unfold yearStart
    omega
  have hdays : yearStart yoe = 365 * yoe + yoe / 4 - yoe / 100 := rfl
  unfold leapless
  omega

theorem dayOfEra_lt {doe : ℤ} (h0 : 0 ≤ doe) (h1 : doe < 146097) :
    leapless doe / 365 = 399 ∨ doe < yearStart (leapless doe / 365 + 1) := by
  have hyear := yearOfEra_bounds h0 h1
  by_contra hnot
  have hyear399 : leapless doe / 365 ≠ 399 := fun h => hnot (.inl h)
  have hlate : yearStart (leapless doe / 365 + 1) ≤ doe := by
    by_contra h
    exact hnot (.inr (by omega))
  have hbounds : 0 ≤ leapless doe / 365 ∧ leapless doe / 365 < 400 := hyear
  have hstart : 365 * (leapless doe / 365 + 1) ≤ leapless (yearStart (leapless doe / 365 + 1)) :=
    leapless_yearStart (by omega) (by omega)
  have hpositive : 0 ≤ yearStart (leapless doe / 365 + 1) := by
    unfold yearStart
    omega
  have hmono := leapless_mono hpositive hlate h1
  omega

theorem daysFromCivil_march (era : ℤ) {yoe mp : ℤ} (hyear : 0 ≤ yoe ∧ yoe < 400)
    (hmonth : 0 ≤ mp ∧ mp ≤ 11) :
    daysFromCivil (yoe + era * 400 + (if (if mp < 10 then mp + 3 else mp - 9) ≤ 2 then 1 else 0),
        if mp < 10 then mp + 3 else mp - 9, 1) =
      era * 146097 + yearStart yoe + (153 * mp + 2) / 5 - 719468 := by
  have hmod : (yoe + era * 400) % 400 = yoe := by omega
  have hdiv : (yoe + era * 400) / 400 = era := by omega
  by_cases hmp : mp < 10
  · have hspring : ¬ mp + 3 ≤ 2 := by omega
    have hback : mp + 3 - 3 = mp := by omega
    simp only [daysFromCivil, if_pos hmp, if_neg hspring, add_zero, hmod, hdiv, hback, yearStart]
    omega
  · have hwinter : mp - 9 ≤ 2 := by omega
    have hback : mp - 9 + 9 = mp := by omega
    have hmarch : yoe + era * 400 + 1 - 1 = yoe + era * 400 := by omega
    simp only [daysFromCivil, if_neg hmp, if_pos hwinter, hback, hmarch, hmod, hdiv, yearStart]
    omega

theorem monthStart_succ (era day : ℤ) {yoe mp : ℤ} (hyear : 0 ≤ yoe ∧ yoe < 400)
    (hmonth : 0 ≤ mp ∧ mp ≤ 11) :
    monthStart (monthOf (yoe + era * 400 +
        (if (if mp < 10 then mp + 3 else mp - 9) ≤ 2 then 1 else 0),
        if mp < 10 then mp + 3 else mp - 9, day) + 1) =
      era * 146097 - 719468 + if mp < 11 then yearStart yoe + (153 * (mp + 1) + 2) / 5
        else if yoe = 399 then 146097 else yearStart (yoe + 1) := by
  by_cases hlast : mp < 11
  · have hnext : 0 ≤ mp + 1 ∧ mp + 1 ≤ 11 := by omega
    have hfirst := daysFromCivil_march era hyear hnext
    rw [if_pos hlast]
    have hsame : monthStart (monthOf (yoe + era * 400 +
        (if (if mp < 10 then mp + 3 else mp - 9) ≤ 2 then 1 else 0),
        if mp < 10 then mp + 3 else mp - 9, day) + 1) =
        daysFromCivil (yoe + era * 400 +
          (if (if mp + 1 < 10 then mp + 1 + 3 else mp + 1 - 9) ≤ 2 then 1 else 0),
          if mp + 1 < 10 then mp + 1 + 3 else mp + 1 - 9, 1) := by
      rw [monthStart]
      congr 1
      simp only [monthOf, Prod.mk.injEq, and_true]
      split_ifs <;> omega
    rw [hsame, hfirst]
    omega
  · obtain rfl : mp = 11 := by omega
    have hquotient : (12 * (yoe + era * 400 + 1) + 2 - 1 + 1) / 12 = yoe + era * 400 + 1 := by omega
    have hremainder : (12 * (yoe + era * 400 + 1) + 2 - 1 + 1) % 12 = 2 := by omega
    rw [if_neg hlast]
    norm_num
    rw [monthStart, monthOf]
    simp only [hquotient, hremainder, daysFromCivil]
    norm_num
    by_cases hend : yoe = 399
    · have hmod : (yoe + era * 400 + 1) % 400 = 0 := by omega
      have hdiv : (yoe + era * 400 + 1) / 400 = era + 1 := by omega
      rw [if_pos hend, hmod, hdiv]
      omega
    · have hmod : (yoe + era * 400 + 1) % 400 = yoe + 1 := by omega
      have hdiv : (yoe + era * 400 + 1) / 400 = era := by omega
      rw [if_neg hend, hmod, hdiv, yearStart]
      omega

theorem lt_monthStart (days : ℤ) : days < monthStart (monthOf (civilFromDays days) + 1) := by
  have h0 := Int.emod_nonneg (days + 719468) (by decide : (146097 : ℤ) ≠ 0)
  have h1 := Int.emod_lt_of_pos (days + 719468) (by decide : (0 : ℤ) < 146097)
  have hera := Int.emod_add_mul_ediv (days + 719468) 146097
  have hyear := yearOfEra_bounds h0 h1
  have hday := dayOfYear_bounds h0 h1 rfl rfl
  have hend := dayOfEra_lt h0 h1
  obtain ⟨doe, hdoe⟩ : ∃ doe, (days + 719468) % 146097 = doe := ⟨_, rfl⟩
  obtain ⟨yoe, hyoe⟩ : ∃ yoe, leapless doe / 365 = yoe := ⟨_, rfl⟩
  obtain ⟨doy, hdoy⟩ : ∃ doy, doe - yearStart yoe = doy := ⟨_, rfl⟩
  obtain ⟨mp, hmp⟩ : ∃ mp, (5 * doy + 2) / 153 = mp := ⟨_, rfl⟩
  rw [hdoe] at h0 h1 hera hend
  rw [hyoe] at hend
  have hyear : 0 ≤ yoe ∧ yoe < 400 := by
    rw [hdoe] at hyear
    exact hyoe ▸ hyear
  have hday : 0 ≤ doy ∧ doy ≤ 365 := by
    rw [hdoe] at hday
    rw [← hdoy, ← hyoe]
    exact hday
  have hdate : civilFromDays days = (yoe + (days + 719468) / 146097 * 400 +
      (if (if mp < 10 then mp + 3 else mp - 9) ≤ 2 then 1 else 0),
      if mp < 10 then mp + 3 else mp - 9, doy - (153 * mp + 2) / 5 + 1) := by
    rw [← hmp, ← hdoy, ← hyoe, ← hdoe]
    rfl
  rw [hdate, monthStart_succ _ _ hyear (by omega)]
  split_ifs with hspring hlast
  · omega
  · omega
  · rcases hend with h | h
    · exact absurd h hlast
    · omega

def months : Tiling where
  start := monthStart
  mono := strictMono_int_of_lt_succ monthStart_lt_succ
  index days := monthOf (civilFromDays days)
  lower := monthStart_le
  upper := lt_monthStart

end PredictionMarketMonitor.CivilTime
