import PredictionMarketMonitor.CivilTime
import PredictionMarketMonitor.JsonText

set_option autoImplicit false

/-!
# Calendar text determines its instant

The year, month and day of a day number give the day number back, and the fields
of a rendered timestamp are told apart by the characters between them.
-/
namespace PredictionMarketMonitor.CivilTime

open CanonicalJson

section Calendar

def daysFromCivil (date : ℤ × ℤ × ℤ) : ℤ :=
  let (year, month, day) := date
  let marchYear := if month ≤ 2 then year - 1 else year
  let mp := if month ≤ 2 then month + 9 else month - 3
  let yoe := marchYear % 400
  marchYear / 400 * 146097 + (365 * yoe + yoe / 4 - yoe / 100) + (153 * mp + 2) / 5 + day - 1 - 719468

theorem yearOfEra_bounds {doe : ℤ} (h0 : 0 ≤ doe) (h1 : doe < 146097) :
    0 ≤ (doe - doe / 1460 + doe / 36524 - doe / 146096) / 365 ∧
      (doe - doe / 1460 + doe / 36524 - doe / 146096) / 365 < 400 := by
  omega

theorem dayOfYear_bounds {doe yoe century : ℤ} (h0 : 0 ≤ doe) (h1 : doe < 146097)
    (hyear : yoe = (doe - doe / 1460 + doe / 36524 - doe / 146096) / 365)
    (hcentury : century = doe / 36524) :
    0 ≤ doe - (365 * yoe + yoe / 4 - yoe / 100) ∧
      doe - (365 * yoe + yoe / 4 - yoe / 100) ≤ 365 := by
  -- inside one century the leap days are linear in the year
  have hcases : century = 0 ∨ century = 1 ∨ century = 2 ∨ century = 3 ∨ century = 4 := by omega
  have hsame : century = 4 ∨ yoe / 100 = century := by omega
  rcases hcases with h | h | h | h | h
  · omega
  · omega
  · omega
  · omega
  · omega

theorem daysFromCivil_fields (era : ℤ) {yoe doy mp : ℤ} (hyear : 0 ≤ yoe ∧ yoe < 400)
    (hday : 0 ≤ doy ∧ doy ≤ 365) (hmonth : (5 * doy + 2) / 153 = mp) :
    daysFromCivil (yoe + era * 400 + (if (if mp < 10 then mp + 3 else mp - 9) ≤ 2 then 1 else 0),
        if mp < 10 then mp + 3 else mp - 9, doy - (153 * mp + 2) / 5 + 1) =
      era * 146097 + (365 * yoe + yoe / 4 - yoe / 100) + doy - 719468 := by
  have hmod : (yoe + era * 400) % 400 = yoe := by omega
  have hdiv : (yoe + era * 400) / 400 = era := by omega
  by_cases hmp : mp < 10
  · have hspring : ¬ mp + 3 ≤ 2 := by omega
    have hback : mp + 3 - 3 = mp := by omega
    simp only [daysFromCivil, if_pos hmp, if_neg hspring, add_zero, hmod, hdiv, hback]
    omega
  · have hwinter : mp - 9 ≤ 2 := by omega
    have hback : mp - 9 + 9 = mp := by omega
    have hmarch : yoe + era * 400 + 1 - 1 = yoe + era * 400 := by omega
    simp only [daysFromCivil, if_neg hmp, if_pos hwinter, hback, hmarch, hmod, hdiv]
    omega

theorem daysFromCivil_civilFromDays (days : ℤ) : daysFromCivil (civilFromDays days) = days := by
  have hera := Int.emod_add_mul_ediv (days + 719468) 146097
  have h0 := Int.emod_nonneg (days + 719468) (by decide : (146097 : ℤ) ≠ 0)
  have h1 := Int.emod_lt_of_pos (days + 719468) (by decide : (0 : ℤ) < 146097)
  have hday := dayOfYear_bounds h0 h1 rfl rfl
  refine (daysFromCivil_fields _ (yearOfEra_bounds h0 h1) hday rfl).trans ?_
  omega

theorem civilFromDays_injective : Function.Injective civilFromDays :=
  Function.LeftInverse.injective daysFromCivil_civilFromDays

theorem civilFromDays_nonneg {days : ℤ} (h : -719468 ≤ days) :
    0 ≤ (civilFromDays days).1 ∧ 0 ≤ (civilFromDays days).2.1 ∧ 0 ≤ (civilFromDays days).2.2 := by
  have h0 := Int.emod_nonneg (days + 719468) (by decide : (146097 : ℤ) ≠ 0)
  have h1 := Int.emod_lt_of_pos (days + 719468) (by decide : (0 : ℤ) < 146097)
  have hyear := yearOfEra_bounds h0 h1
  have hday := dayOfYear_bounds h0 h1 rfl rfl
  have hera : 0 ≤ (days + 719468) / 146097 := by omega
  have hmonth : ∀ mp : ℤ, 0 ≤ mp → 0 ≤ if mp < 10 then mp + 3 else mp - 9 := by
    intro mp hmp
    split_ifs <;> omega
  have hleap : ∀ month : ℤ, (0 : ℤ) ≤ if month ≤ 2 then 1 else 0 := by
    intro month
    split_ifs <;> omega
  refine ⟨?_, hmonth _ (by omega), ?_⟩
  · exact add_nonneg (add_nonneg hyear.1 (by omega)) (hleap _)
  · have hrest : ∀ doy : ℤ, 0 ≤ doy → 0 ≤ doy - (153 * ((5 * doy + 2) / 153) + 2) / 5 + 1 := by omega
    exact hrest _ hday.1

end Calendar

section Fields

theorem padded_isDigit {width : ℕ} {n : ℤ} : ∀ c ∈ padded width n, c.isDigit = true := by
  intro c hc
  rcases List.mem_append.mp hc with hc | hc
  · rw [List.eq_of_mem_replicate hc]
    rfl
  · exact toDigits_isDigit c hc

theorem digitsValue_zeros (k : ℕ) (ds : Text) :
    digitsValue (List.replicate k '0' ++ ds) = digitsValue ds := by
  induction k with
  | zero => rfl
  | succ k ih =>
    rw [List.replicate_succ, List.cons_append]
    exact ih

theorem padded_injective {width : ℕ} {m n : ℤ} (hm : 0 ≤ m) (hn : 0 ≤ n)
    (h : padded width m = padded width n) : m = n := by
  have hvalue : ∀ k : ℤ, digitsValue (padded width k) = k.toNat := by
    intro k
    rw [padded, digitsValue_zeros, digitsValue_toDigits]
  have htoNat : m.toNat = n.toNat := by rw [← hvalue m, h, hvalue n]
  omega

theorem padded_split {width : ℕ} {m n : ℤ} {c : Char} {r s : Text} (hc : c.isDigit = false)
    (hm : 0 ≤ m) (hn : 0 ≤ n) (h : padded width m ++ c :: r = padded width n ++ c :: s) :
    m = n ∧ r = s := by
  obtain ⟨hdigits, hrest⟩ := digits_split padded_isDigit padded_isDigit (ends_cons hc)
    (ends_cons hc) h
  exact ⟨padded_injective hm hn hdigits, (List.cons.inj hrest).2⟩

/-- `%Y-%m-%d` -/
def formatDate (date : ℤ × ℤ × ℤ) : Text :=
  padded 4 date.1 ++ '-' :: padded 2 date.2.1 ++ '-' :: padded 2 date.2.2

theorem formatDate_split {a b : ℤ × ℤ × ℤ} {c : Char} {r s : Text} (hc : c.isDigit = false)
    (ha : 0 ≤ a.1 ∧ 0 ≤ a.2.1 ∧ 0 ≤ a.2.2) (hb : 0 ≤ b.1 ∧ 0 ≤ b.2.1 ∧ 0 ≤ b.2.2)
    (h : formatDate a ++ c :: r = formatDate b ++ c :: s) : a = b ∧ r = s := by
  simp only [formatDate, List.append_assoc, List.cons_append] at h
  obtain ⟨hyear, h⟩ := padded_split (by decide) ha.1 hb.1 h
  obtain ⟨hmonth, h⟩ := padded_split (by decide) ha.2.1 hb.2.1 h
  obtain ⟨hday, hrest⟩ := padded_split hc ha.2.2 hb.2.2 h
  exact ⟨Prod.ext hyear (Prod.ext hmonth hday), hrest⟩

theorem formatDate_injective {a b : ℤ × ℤ × ℤ} (ha : 0 ≤ a.1 ∧ 0 ≤ a.2.1 ∧ 0 ≤ a.2.2)
    (hb : 0 ≤ b.1 ∧ 0 ≤ b.2.1 ∧ 0 ≤ b.2.2) (h : formatDate a = formatDate b) : a = b :=
  (formatDate_split (c := '-') (r := []) (s := []) (by decide) ha hb (by rw [h])).1

theorem formatSeconds_eq (c : Civil) :
    formatSeconds c = formatDate (c.year, c.month, c.day) ++ 'T' :: padded 2 c.hour ++
      ':' :: padded 2 c.minute ++ ':' :: padded 2 c.second := by
  simp [formatSeconds, formatDate]

def FromYearZero (t : Instant) : Prop := -719468 * 86400000000 ≤ t

theorem formatMicroseconds_injective {t u : Instant} (ht : FromYearZero t) (hu : FromYearZero u)
    (h : formatMicroseconds t = formatMicroseconds u) : t = u := by
  have hdays : ∀ v : ℤ, -719468 * 86400000000 ≤ v → -719468 ≤ v / 1000000 / 86400 := by
    intro v hv
    omega
  have hnonneg : ∀ v : ℤ, 0 ≤ v / 1000000 % 86400 / 3600 ∧ 0 ≤ v / 1000000 % 86400 / 60 % 60 ∧
      0 ≤ v / 1000000 % 86400 % 60 ∧ 0 ≤ v % 1000000 := by
    intro v
    omega
  simp only [formatMicroseconds, formatSeconds_eq, civil, List.append_assoc, List.cons_append] at h
  obtain ⟨hdate, h⟩ := formatDate_split (by decide) (civilFromDays_nonneg (hdays t ht))
    (civilFromDays_nonneg (hdays u hu)) h
  obtain ⟨hhour, h⟩ := padded_split (by decide) (hnonneg t).1 (hnonneg u).1 h
  obtain ⟨hminute, h⟩ := padded_split (by decide) (hnonneg t).2.1 (hnonneg u).2.1 h
  obtain ⟨hsecond, h⟩ := padded_split (by decide) (hnonneg t).2.2.1 (hnonneg u).2.2.1 h
  obtain ⟨hmicro, _⟩ := padded_split (by decide) (hnonneg t).2.2.2 (hnonneg u).2.2.2 h
  have hday := civilFromDays_injective hdate
  have hsame : ∀ v w : ℤ, v / 1000000 / 86400 = w / 1000000 / 86400 →
      v / 1000000 % 86400 / 3600 = w / 1000000 % 86400 / 3600 →
      v / 1000000 % 86400 / 60 % 60 = w / 1000000 % 86400 / 60 % 60 →
      v / 1000000 % 86400 % 60 = w / 1000000 % 86400 % 60 →
      v % 1000000 = w % 1000000 → v = w := by
    intro v w
    omega
  exact hsame t u hday hhour hminute hsecond hmicro

end Fields

section Ascii

theorem isAscii_padded (width : ℕ) (n : ℤ) : IsAscii (padded width n) := isAscii_digits padded_isDigit

theorem isAscii_formatDate (date : ℤ × ℤ × ℤ) : IsAscii (formatDate date) :=
  isAscii_append (isAscii_append (isAscii_padded _ _)
    (isAscii_cons (by decide) (isAscii_padded _ _))) (isAscii_cons (by decide) (isAscii_padded _ _))

theorem isAscii_formatMicroseconds (t : Instant) : IsAscii (formatMicroseconds t) := by
  have hfield : ∀ (c : Char) (width : ℕ) (n : ℤ), c.toNat < 128 → IsAscii (c :: padded width n) :=
    fun _ width n hc => isAscii_cons hc (isAscii_padded width n)
  rw [formatMicroseconds, formatSeconds_eq]
  refine isAscii_append (isAscii_append (isAscii_append (isAscii_append (isAscii_append
    (isAscii_formatDate _) ?_) ?_) ?_) ?_) (by decide)
  · exact hfield 'T' _ _ (by decide)
  · exact hfield ':' _ _ (by decide)
  · exact hfield ':' _ _ (by decide)
  · exact hfield '.' _ _ (by decide)

end Ascii

end PredictionMarketMonitor.CivilTime
