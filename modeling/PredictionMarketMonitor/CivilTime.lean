import Mathlib

set_option autoImplicit false

/-!
# Instants and their calendar rendering

An instant counts microseconds from 1970-01-01T00:00:00Z. Rendering uses the
proleptic Gregorian calendar.
-/
namespace PredictionMarketMonitor.CivilTime

abbrev Instant := ℤ

def seconds (n : ℤ) : ℤ := n * 1000000

def minutes (n : ℤ) : ℤ := seconds (n * 60)

def hours (n : ℤ) : ℤ := minutes (n * 60)

def days (n : ℤ) : ℤ := hours (n * 24)

def datetimeMin : Instant := seconds (-62135596800)

/-- `datetime.max`, one microsecond before the year 10000. -/
def datetimeMax : Instant := seconds 253402300800 - 1

def InYears (t : Instant) : Prop := datetimeMin ≤ t ∧ t ≤ datetimeMax

instance (t : Instant) : Decidable (InYears t) := inferInstanceAs (Decidable (_ ∧ _))

theorem seconds_mono {m n : ℤ} (h : m ≤ n) : seconds m ≤ seconds n := by
  unfold seconds
  omega

theorem seconds_add (m n : ℤ) : seconds (m + n) = seconds m + seconds n := Int.add_mul m n _

structure Civil where
  year : ℤ
  month : ℤ
  day : ℤ
  hour : ℤ
  minute : ℤ
  second : ℤ
  microsecond : ℤ
deriving DecidableEq

/-- Year, month and day of a day number, through 400-year eras that start in March. -/
def civilFromDays (days : ℤ) : ℤ × ℤ × ℤ :=
  let z := days + 719468
  let era := z / 146097
  let doe := z % 146097
  let yoe := (doe - doe / 1460 + doe / 36524 - doe / 146096) / 365
  let doy := doe - (365 * yoe + yoe / 4 - yoe / 100)
  let mp := (5 * doy + 2) / 153
  let month := if mp < 10 then mp + 3 else mp - 9
  (yoe + era * 400 + (if month ≤ 2 then 1 else 0), month, doy - (153 * mp + 2) / 5 + 1)

def civil (t : Instant) : Civil :=
  let secs := t / 1000000
  let (year, month, day) := civilFromDays (secs / 86400)
  let rest := secs % 86400
  ⟨year, month, day, rest / 3600, rest / 60 % 60, rest % 60, t % 1000000⟩

def padded (width : ℕ) (n : ℤ) : List Char :=
  let digits := Nat.toDigits 10 n.toNat
  List.replicate (width - digits.length) '0' ++ digits

/-- `%Y-%m-%dT%H:%M:%S`. -/
def formatSeconds (c : Civil) : List Char :=
  padded 4 c.year ++ '-' :: padded 2 c.month ++ '-' :: padded 2 c.day ++ 'T' ::
    padded 2 c.hour ++ ':' :: padded 2 c.minute ++ ':' :: padded 2 c.second

/-- `%Y-%m-%dT%H:%M:%S.%fZ` in UTC. -/
def formatMicroseconds (t : Instant) : List Char :=
  formatSeconds (civil t) ++ '.' :: padded 6 (civil t).microsecond ++ ['Z']

example : formatMicroseconds 1785589323000042 = "2026-08-01T13:02:03.000042Z".toList := by
  decide +kernel

/-- A wall clock reading: `utcoffset` (in seconds) is absent for a naive value,
    whose `instant` is then the reading itself. -/
structure Datetime where
  instant : Instant
  utcoffset : Option ℤ
deriving DecidableEq

namespace Datetime

def utc (t : Instant) : Datetime := ⟨t, some 0⟩

def Aware (d : Datetime) : Prop := d.utcoffset.isSome

instance (d : Datetime) : Decidable d.Aware := inferInstanceAs (Decidable (_ = _))

/-- A value of UTC is its own reading; any other may have a reading without a year. -/
def HasUtc (d : Datetime) : Prop := d.Aware ∧ (d.utcoffset = some 0 ∨ InYears d.instant)

instance (d : Datetime) : Decidable d.HasUtc := inferInstanceAs (Decidable (_ ∧ _))

def offsetSuffix (offset : ℤ) : List Char :=
  if offset = 0 then ['Z']
  else (if offset < 0 then '-' else '+') :: padded 2 (offset.natAbs / 3600 : ℕ) ++
    ':' :: padded 2 (offset.natAbs / 60 % 60 : ℕ)

/-- The JSON rendering of a datetime field: fractional seconds only when present. -/
def json (d : Datetime) : List Char :=
  let c := civil (d.instant + seconds (d.utcoffset.getD 0))
  formatSeconds c ++ (if c.microsecond = 0 then [] else '.' :: padded 6 c.microsecond) ++
    (d.utcoffset.map offsetSuffix).getD []

end Datetime

end PredictionMarketMonitor.CivilTime
