import PredictionMarketMonitor.CalendarMonths
import PredictionMarketMonitor.PostArchive
import PredictionMarketMonitor.SlotGrid

set_option autoImplicit false

/-!
# The provider windows of a projection

`expected_window_ids` of `scripts/free_tier_projection.py` with its floors, and
`parse_time` and `page_bound_for_window` of `scripts/free_tier_domain.py`. The parser
`datetime.fromisoformat` is a parameter.
-/
namespace PredictionMarketMonitor.ProjectionWindows

open CanonicalJson CivilTime FallibleSteps PostArchive Tilings

/-- Why an evaluation stops; a `GateHoldError` keeps its text. -/
inductive ProjectionError
  | gateHold (message : String)
  | overflowError
  | valueError
deriving DecidableEq

def parseTime (fromisoformat : Text → Option Datetime) (value : Json) (field : String) :
    Except ProjectionError Instant :=
  match value with
  | .str text =>
    match fromisoformat text with
    | none => .error (.gateHold (field ++ " must be an RFC3339 timestamp"))
    | some parsed =>
      if parsed.utcoffset = none then .error (.gateHold (field ++ " must include a timezone"))
      -- the UTC reading may have no year
      else if datetimeMin ≤ parsed.instant ∧ parsed.instant ≤ datetimeMax then .ok parsed.instant
      else .error .overflowError
  | _ => .error (.gateHold (field ++ " must be an RFC3339 timestamp"))

def horizon : ℤ := days 30

/-- `value + delta` -/
def shift (value : Instant) (delta : ℤ) : Except ProjectionError Instant :=
  if datetimeMin ≤ value + delta ∧ value + delta ≤ datetimeMax then .ok (value + delta)
  else .error .overflowError

/-- `datetime(year, month, day, tzinfo=UTC)` -/
def midnight (year month day : ℤ) : Instant := days 1 * daysFromCivil (year, month, day)

def weekday (value : Instant) : ℤ := (value / days 1 + 3) % 7

/-- `value.replace(minute=0, second=0, microsecond=0)` -/
def floorHour (value : Instant) : Instant :=
  midnight (civil value).year (civil value).month (civil value).day + hours (civil value).hour

def floorDay (value : Instant) : Instant :=
  midnight (civil value).year (civil value).month (civil value).day

def floorWeek (value : Instant) : Except ProjectionError Instant :=
  shift (floorDay value) (-days (weekday value))

def floorMonth (value : Instant) : Instant := midnight (civil value).year (civil value).month 1

def nextMonth (value : Instant) : Except ProjectionError Instant :=
  if (civil value).month = 12 then
    -- there is no year 10000
    if (civil value).year + 1 ≤ 9999 then .ok (midnight ((civil value).year + 1) 1 1)
    else .error .valueError
  else .ok (midnight (civil value).year ((civil value).month + 1) 1)

def nextFixedWindow (current : Instant) : Option ℤ → Except ProjectionError Instant
  | none => nextMonth current
  | some step => shift current step

inductive WindowKind
  | rollingHour | rollingDay | rollingWeek | billingMonth
deriving DecidableEq

namespace WindowKind

def value : WindowKind → String
  | .rollingHour => "rolling-hour"
  | .rollingDay => "rolling-day"
  | .rollingWeek => "rolling-week"
  | .billingMonth => "billing-month"

def ofValue? (kind : String) : Option WindowKind :=
  [rollingHour, rollingDay, rollingWeek, billingMonth].find? (fun k => k.value = kind)

/-- `start` of the first window. -/
def floor (kind : WindowKind) (capture : Instant) : Except ProjectionError Instant :=
  match kind with
  | .rollingHour => .ok (floorHour capture)
  | .rollingDay => .ok (floorDay capture)
  | .rollingWeek => floorWeek capture
  | .billingMonth => .ok (floorMonth capture)

/-- `step`; a month has none. -/
def step : WindowKind → Option ℤ
  | .rollingHour => some (hours 1)
  | .rollingDay => some (days 1)
  | .rollingWeek => some (days 7)
  | .billingMonth => none

end WindowKind

/-- `text.replace(old, new)`; so many characters of `text` were taken by `old` already. -/
def replaceFrom (old new : Text) : ℕ → Text → Text
  | _, [] => []
  | skip + 1, _ :: rest => replaceFrom old new skip rest
  | 0, c :: rest =>
    if old.isPrefixOf (c :: rest) = true then new ++ replaceFrom old new (old.length - 1) rest
    else c :: replaceFrom old new 0 rest

/-- `value.isoformat().replace("+00:00", "Z")` -/
def timeText (value : Instant) : Text := replaceFrom "+00:00".toList ['Z'] 0 (isoformat value)

def windowId (kind : WindowKind) (window : Instant × Instant) : Text :=
  kind.value.toList ++ ':' :: timeText window.1 ++ ':' :: timeText window.2

theorem midnight_civil (t : ℤ) :
    midnight (civil t).year (civil t).month (civil t).day = days 1 * (t / 1000000 / 86400) :=
  congrArg (days 1 * ·) (daysFromCivil_civilFromDays (t / 1000000 / 86400))

theorem days_one : days 1 = 86400000000 := rfl

theorem nextMonth_gt {x y : ℤ} (h : nextMonth x = .ok y) : x < y := by
  have hmonth : (1 ≤ (civil x).month ∧ (civil x).month ≤ 12) := (civilFromDays_month _).1
  have hlt : x / 1000000 / 86400 < monthStart (12 * (civil x).year + (civil x).month - 1 + 1) :=
    lt_monthStart (x / 1000000 / 86400)
  have hstart : monthStart (12 * (civil x).year + (civil x).month - 1 + 1) * days 1 = y := by
    unfold nextMonth at h
    split_ifs at h with hlast hyear
    · rw [← Except.ok.inj h, hlast, midnight, mul_comm]
      have hfields := monthStart_fields ((civil x).year + 1) (by omega : (1 : ℤ) ≤ 1 ∧ (1 : ℤ) ≤ 12) 1
      rw [← hfields, monthOf]
      congr 2
      ring
    · rw [← Except.ok.inj h, midnight, mul_comm]
      have hmonth : 1 ≤ (civil x).month + 1 ∧ (civil x).month + 1 ≤ 12 := by omega
      have hfields := monthStart_fields (civil x).year hmonth 1
      rw [← hfields, monthOf]
      congr 2
      ring
  rw [days_one] at hstart
  omega

theorem nextFixedWindow_gt (kind : WindowKind) (x y : ℤ)
    (h : nextFixedWindow x kind.step = .ok y) : x < y := by
  have hshift : ∀ delta : ℤ, 0 < delta → shift x delta = .ok y → x < y := by
    intro delta hdelta hy
    unfold shift at hy
    split_ifs at hy
    rw [← Except.ok.inj hy]
    linarith
  cases kind with
  | rollingHour => exact hshift (hours 1) (by decide) h
  | rollingDay => exact hshift (days 1) (by decide) h
  | rollingWeek => exact hshift (days 7) (by decide) h
  | billingMonth => exact nextMonth_gt h

def expectedWindows (kind : WindowKind) (capture horizonEnd : Instant) :
    Except ProjectionError (List (Instant × Instant)) := do
  let start ← kind.floor capture
  enumerate (fun current => nextFixedWindow current kind.step) (nextFixedWindow_gt kind)
    (fun fin => decide (capture < fin)) horizonEnd start

def windowIds (kind : WindowKind) (windows : List (Instant × Instant)) : Finset Text :=
  (windows.map (windowId kind)).toFinset

def expectedWindowIds (fromisoformat : Text → Option Datetime) (kind : String)
    (capturedAt : Json) : Except ProjectionError (Finset Text) := do
  let capture ← parseTime fromisoformat capturedAt "captured_at"
  let horizonEnd ← shift capture horizon
  match WindowKind.ofValue? kind with
  | none => .error (.gateHold "quota window kind is unsupported")
  | some kind => return windowIds kind (← expectedWindows kind capture horizonEnd)

def pageBoundForWindow (captureAt windowStart windowEnd : Instant)
    (trailing30dPageRequests : ℤ) : Except ProjectionError ℤ := do
  let horizonEnd ← shift captureAt horizon
  let overlapStart := max captureAt windowStart
  let overlapEnd := min horizonEnd windowEnd
  if overlapEnd ≤ overlapStart then return 0
  else return max 10000 (3 * trailing30dPageRequests)

def grid : WindowKind → Tiling
  | .rollingHour => .evenly 0 (hours 1) (by decide)
  | .rollingDay => .evenly 0 (days 1) (by decide)
  | .rollingWeek => .evenly (days 4) (days 7) (by decide)
  | .billingMonth => months.scale (days 1) (by decide)

theorem day_eq (t : ℤ) : t / 1000000 / 86400 = t / days 1 := by
  rw [days_one, Int.ediv_ediv_of_nonneg (by omega)]
  rfl

theorem hour_eq (t : ℤ) : hours (civil t).hour = t % days 1 - t % hours 1 := by
  have hfield : hours (civil t).hour = t / 1000000 % 86400 / 3600 * 60 * 60 * 1000000 := rfl
  have hhour : hours 1 = 3600000000 := rfl
  rw [hfield, hhour, days_one]
  omega

theorem weekStart (t : ℤ) : days 1 * (t / days 1) + -days (weekday t) =
    days 4 + days 7 * ((t - days 4) / days 7) := by
  have hweekday : days (weekday t) = (t / days 1 + 3) % 7 * 24 * 60 * 60 * 1000000 := rfl
  have hfour : days 4 = 345600000000 := rfl
  have hseven : days 7 = 604800000000 := rfl
  rw [hweekday, hfour, hseven, days_one]
  omega

theorem weekStart_min {t : ℤ} (h : datetimeMin ≤ t) :
    datetimeMin ≤ days 4 + days 7 * ((t - days 4) / days 7) := by
  have hmonday : ∀ u : ℤ, -62135596800000000 ≤ u → -62135596800000000 ≤
      345600000000 + 604800000000 * ((u - 345600000000) / 604800000000) := by
    intro u hu
    omega
  exact hmonday t h

theorem floor_eq (kind : WindowKind) {t : ℤ} (hmin : datetimeMin ≤ t) (hmax : t ≤ datetimeMax) :
    kind.floor t = .ok ((grid kind).start ((grid kind).index t)) := by
  cases kind with
  | rollingHour =>
    have hparts : ∀ u : ℤ, 86400000000 * (u / 86400000000) +
        (u % 86400000000 - u % 3600000000) = 0 + 3600000000 * ((u - 0) / 3600000000) := by
      intro u
      omega
    have hfloor : floorHour t = 0 + hours 1 * ((t - 0) / hours 1) := by
      rw [floorHour, midnight_civil, day_eq, hour_eq]
      exact hparts t
    exact congrArg _ hfloor
  | rollingDay =>
    have hfloor : floorDay t = 0 + days 1 * ((t - 0) / days 1) := by
      rw [floorDay, midnight_civil, day_eq]
      simp
    exact congrArg _ hfloor
  | rollingWeek =>
    have hlow := weekStart_min hmin
    have hhigh : days 4 + days 7 * ((t - days 4) / days 7) ≤ datetimeMax :=
      ((grid .rollingWeek).lower t).trans hmax
    have hfloor : floorWeek t = .ok (days 4 + days 7 * ((t - days 4) / days 7)) := by
      rw [floorWeek, floorDay, midnight_civil, day_eq, shift, weekStart, if_pos ⟨hlow, hhigh⟩]
    exact hfloor
  | billingMonth =>
    have hmonth : (1 ≤ (civil t).month ∧ (civil t).month ≤ 12) := (civilFromDays_month _).1
    have hfields := monthStart_fields (civil t).year hmonth (civil t).day
    have hdate : monthOf (civilFromDays (t / days 1)) =
        monthOf ((civil t).year, (civil t).month, (civil t).day) := by
      rw [← day_eq]
      rfl
    have hfloor : floorMonth t = days 1 * monthStart (monthOf (civilFromDays (t / days 1))) := by
      rw [hdate, hfields]
      rfl
    have hstart : (grid .billingMonth).start ((grid .billingMonth).index t) =
        days 1 * monthStart (monthOf (civilFromDays (t / days 1))) := rfl
    rw [hstart, ← hfloor]
    rfl

/-- The last month of the calendar is the December of 9999. -/
theorem month_le_iff (k : ℤ) : days 1 * monthStart k ≤ datetimeMax ↔ k ≤ 119999 := by
  have hlast : months.index (datetimeMax / days 1) = 119999 := by decide +kernel
  rw [← hlast]
  exact (grid .billingMonth).start_le_iff

theorem civil_monthStart (k : ℤ) : (civil (days 1 * monthStart k)).year = k / 12 ∧
    (civil (days 1 * monthStart k)).month = k % 12 + 1 := by
  have hday : days 1 * monthStart k / 1000000 / 86400 = monthStart k := by
    rw [day_eq, Int.mul_ediv_cancel_left _ (by decide)]
  have hmonth := (civilFromDays_month (monthStart k)).1
  have hindex : 12 * (civilFromDays (monthStart k)).1 + (civilFromDays (monthStart k)).2.1 - 1 = k :=
    months.index_start k
  have hyear : (civil (days 1 * monthStart k)).year =
      (civilFromDays (days 1 * monthStart k / 1000000 / 86400)).1 := rfl
  have hmonth' : (civil (days 1 * monthStart k)).month =
      (civilFromDays (days 1 * monthStart k / 1000000 / 86400)).2.1 := rfl
  rw [hyear, hmonth', hday]
  omega

theorem nextMonth_start (k : ℤ) : nextMonth (days 1 * monthStart k) =
    if k % 12 = 11 ∧ 9999 ≤ k / 12 then .error .valueError
    else .ok (days 1 * monthStart (k + 1)) := by
  obtain ⟨hyear, hmonth⟩ := civil_monthStart k
  rw [nextMonth, hyear, hmonth]
  by_cases hlast : k % 12 = 11
  · rw [if_pos (by omega)]
    have hstart : midnight (k / 12 + 1) 1 1 = days 1 * monthStart (k + 1) := by
      have hfirst : (k + 1) / 12 = k / 12 + 1 ∧ (k + 1) % 12 = 0 := by omega
      rw [midnight, monthStart, hfirst.1, hfirst.2]
      rfl
    by_cases hend : 9999 ≤ k / 12
    · rw [if_neg (by omega), if_pos ⟨hlast, hend⟩]
    · rw [if_pos (by omega), if_neg (by omega), hstart]
  · rw [if_neg (by omega), if_neg (by omega)]
    have hnext : (k + 1) / 12 = k / 12 ∧ (k + 1) % 12 = k % 12 + 1 := by omega
    rw [midnight, monthStart, hnext.1, hnext.2]

theorem nextFixedWindow_ok (kind : WindowKind) (k : ℤ)
    (hmin : datetimeMin ≤ (grid kind).start (k + 1)) (h : (grid kind).start (k + 1) ≤ datetimeMax) :
    nextFixedWindow ((grid kind).start k) kind.step = .ok ((grid kind).start (k + 1)) := by
  have hshift : ∀ origin step : ℤ, datetimeMin ≤ origin + step * (k + 1) →
      origin + step * (k + 1) ≤ datetimeMax →
      shift (origin + step * k) step = .ok (origin + step * (k + 1)) := by
    intro origin step hlow hhigh
    have hnext : origin + step * k + step = origin + step * (k + 1) := by ring
    rw [shift, hnext, if_pos ⟨hlow, hhigh⟩]
  cases kind with
  | rollingHour => exact hshift _ _ hmin h
  | rollingDay => exact hshift _ _ hmin h
  | rollingWeek => exact hshift _ _ hmin h
  | billingMonth =>
    have hk := (month_le_iff (k + 1)).mp h
    exact (nextMonth_start k).trans (if_neg (by omega))

theorem nextFixedWindow_fails (kind : WindowKind) (k : ℤ) (hfrom : (grid kind).start k ≤ datetimeMax)
    (h : datetimeMax < (grid kind).start (k + 1)) :
    ∃ e, nextFixedWindow ((grid kind).start k) kind.step = .error e := by
  have hshift : ∀ origin step : ℤ, datetimeMax < origin + step * (k + 1) →
      shift (origin + step * k) step = .error .overflowError := by
    intro origin step hhigh
    have hnext : origin + step * k + step = origin + step * (k + 1) := by ring
    rw [shift, hnext, if_neg]
    rintro ⟨-, hle⟩
    exact absurd hle (not_le.mpr hhigh)
  cases kind with
  | rollingHour => exact ⟨_, hshift _ _ h⟩
  | rollingDay => exact ⟨_, hshift _ _ h⟩
  | rollingWeek => exact ⟨_, hshift _ _ h⟩
  | billingMonth =>
    have hk := (month_le_iff k).mp hfrom
    have hnext : ¬k + 1 ≤ 119999 := fun hle => absurd ((month_le_iff (k + 1)).mpr hle) (not_le.mpr h)
    exact ⟨_, (nextMonth_start k).trans (if_pos (by omega))⟩

def lastWindow (kind : WindowKind) (capture : ℤ) : ℤ := (grid kind).index (capture + horizon - 1)

def windowsOf (kind : WindowKind) (capture : ℤ) : List (Instant × Instant) :=
  (grid kind).cells ((grid kind).index capture)
    (lastWindow kind capture + 1 - (grid kind).index capture).toNat

/-- The dates that the enumeration forms are dates of the calendar. -/
structure Representable (kind : WindowKind) (capture : ℤ) : Prop where
  reading : datetimeMin ≤ capture
  horizonEnd : capture + horizon ≤ datetimeMax
  lastEnd : (grid kind).start (lastWindow kind capture + 1) ≤ datetimeMax

theorem horizon_eq : horizon = 2592000000000 := rfl

theorem index_le_lastWindow (kind : WindowKind) (capture : ℤ) :
    (grid kind).index capture ≤ lastWindow kind capture := by
  have hlower := (grid kind).lower capture
  have hlast : (grid kind).start ((grid kind).index capture) ≤ capture + horizon - 1 := by
    rw [horizon_eq]
    omega
  exact (grid kind).start_le_iff.mp hlast

section Listing
variable {kind : WindowKind} {capture : ℤ}

theorem windowsOf_end : (grid kind).index capture +
    ((lastWindow kind capture + 1 - (grid kind).index capture).toNat : ℤ) =
      lastWindow kind capture + 1 := by
  have h := index_le_lastWindow kind capture
  omega

theorem windowsOf_below (i : ℕ)
    (hi : i < (lastWindow kind capture + 1 - (grid kind).index capture).toNat) :
    (grid kind).start ((grid kind).index capture + i) < capture + horizon := by
  have hle : (grid kind).index capture + i ≤ lastWindow kind capture := by omega
  have hstart := (grid kind).start_le_iff.mpr hle
  omega

theorem after_capture (j : ℤ) (hj : (grid kind).index capture < j) :
    capture < (grid kind).start j := (grid kind).lt_start_iff.mpr hj

theorem nextFixedWindow_listed (hmin : datetimeMin ≤ capture) (j : ℤ)
    (hj : (grid kind).index capture ≤ j) (h : (grid kind).start (j + 1) ≤ datetimeMax) :
    nextFixedWindow ((grid kind).start j) kind.step = .ok ((grid kind).start (j + 1)) :=
  nextFixedWindow_ok kind j (hmin.trans (after_capture (j + 1) (by omega)).le) h

theorem expectedWindows_ok (h : Representable kind capture) :
    expectedWindows kind capture (capture + horizon) = .ok (windowsOf kind capture) := by
  have hmax : capture ≤ datetimeMax := by
    have hend := h.horizonEnd
    have hpositive : (0 : ℤ) ≤ horizon := by decide
    linarith
  rw [expectedWindows, floor_eq kind h.reading hmax, ok_bind]
  refine enumerate_cells (grid kind) (nextFixedWindow_listed h.reading) (fun j hj => ?_)
    windowsOf_below ?_ ?_
  · exact decide_eq_true (after_capture j hj)
  · rw [windowsOf_end]
    have hlast := (grid kind).upper (capture + horizon - 1)
    exact Int.le_of_sub_one_lt hlast
  · rw [windowsOf_end]
    exact h.lastEnd

theorem expectedWindows_fails (hmin : datetimeMin ≤ capture)
    (hend : capture + horizon ≤ datetimeMax) (h : ¬Representable kind capture) :
    ∃ e, expectedWindows kind capture (capture + horizon) = .error e := by
  have hmax : capture ≤ datetimeMax := by
    have hpositive : (0 : ℤ) ≤ horizon := by decide
    linarith
  have hlast : datetimeMax < (grid kind).start (lastWindow kind capture + 1) := by
    by_contra hle
    exact h ⟨hmin, hend, not_lt.mp hle⟩
  rw [expectedWindows, floor_eq kind hmin hmax, ok_bind]
  refine enumerate_fails (grid kind) (nextFixedWindow_listed hmin) (nextFixedWindow_fails kind)
    (fun j hj => ?_) windowsOf_below (((grid kind).lower capture).trans hmax) ?_
  · exact decide_eq_true (after_capture j hj)
  · rw [windowsOf_end]
    exact hlast

end Listing

theorem replaceFrom_suffix {c : Char} {old new : Text} (u : Text) (hu : c ∉ u) :
    replaceFrom (c :: old) new 0 (u ++ c :: old) = u ++ new := by
  have hskip : ∀ text : Text, replaceFrom (c :: old) new text.length text = [] := by
    intro text
    induction text with
    | nil => rfl
    | cons d text ih => exact ih
  induction u with
  | nil =>
    have hall : (c :: old).isPrefixOf (c :: old) = true := by simp
    rw [List.nil_append, replaceFrom, if_pos hall]
    simp [hskip]
  | cons d u ih =>
    have hne : c ≠ d := fun h => hu (h ▸ List.mem_cons_self)
    have hrest : c ∉ u := fun h => hu (List.mem_cons_of_mem d h)
    have hnot : ¬(c :: old).isPrefixOf (d :: (u ++ c :: old)) = true := by simp [hne]
    rw [List.cons_append, replaceFrom, if_neg hnot, ih hrest]
    rfl

theorem plus_notMem_formatSeconds (c : Civil) : '+' ∉ formatSeconds c := by
  have hfield : ∀ (width : ℕ) (n : ℤ), '+' ∉ padded width n :=
    fun width n h => absurd (padded_isDigit '+' h) (by decide)
  simp [formatSeconds, hfield]

theorem timeText_eq {t : ℤ} (h : t % 1000000 = 0) :
    timeText t = formatSeconds (civil t) ++ ['Z'] := by
  have hmicro : (civil t).microsecond = 0 := h
  have hiso : isoformat t = formatSeconds (civil t) ++ '+' :: "00:00".toList := by
    rw [isoformat, if_pos hmicro, List.append_nil]
    rfl
  rw [timeText, hiso]
  exact replaceFrom_suffix _ (plus_notMem_formatSeconds _)

theorem timeText_split {t u : ℤ} {r s : Text} (ht : t % 1000000 = 0) (hu : u % 1000000 = 0)
    (htmin : datetimeMin ≤ t) (humin : datetimeMin ≤ u) (h : timeText t ++ r = timeText u ++ s) :
    t = u ∧ r = s := by
  have hdays : ∀ v : ℤ, -62135596800000000 ≤ v → -719468 ≤ v / 1000000 / 86400 := by
    intro v hv
    omega
  have hnonneg : ∀ v : ℤ, 0 ≤ v / 1000000 % 86400 / 3600 ∧ 0 ≤ v / 1000000 % 86400 / 60 % 60 ∧
      0 ≤ v / 1000000 % 86400 % 60 := by
    intro v
    omega
  rw [timeText_eq ht, timeText_eq hu] at h
  simp only [formatSeconds_eq, civil, List.append_assoc, List.cons_append] at h
  obtain ⟨hdate, h⟩ := formatDate_split (by decide) (civilFromDays_nonneg (hdays t htmin))
    (civilFromDays_nonneg (hdays u humin)) h
  obtain ⟨hhour, h⟩ := padded_split (by decide) (hnonneg t).1 (hnonneg u).1 h
  obtain ⟨hminute, h⟩ := padded_split (by decide) (hnonneg t).2.1 (hnonneg u).2.1 h
  obtain ⟨hsecond, h⟩ := padded_split (by decide) (hnonneg t).2.2 (hnonneg u).2.2 h
  have hday := civilFromDays_injective hdate
  exact ⟨by omega, h⟩

theorem start_whole (kind : WindowKind) (k : ℤ) : (grid kind).start k % 1000000 = 0 := by
  have hhours : ∀ n m : ℤ, (n * 3600000000 + m * 3600000000 * k) % 1000000 = 0 := by
    intro n m
    have hfactor : n * 3600000000 + m * 3600000000 * k = 1000000 * (3600 * (n + m * k)) := by ring
    rw [hfactor]
    exact Int.mul_emod_right _ _
  have hmonths : ∀ d : ℤ, 86400000000 * d % 1000000 = 0 := by
    intro d
    omega
  cases kind with
  | rollingHour => exact hhours 0 1
  | rollingDay => exact hhours 0 24
  | rollingWeek => exact hhours 96 168
  | billingMonth => exact hmonths (monthStart k)

/-- A window of a kind: it begins where the kind's floor leaves a datetime as it is, and
    ends at the next such datetime. -/
structure Aligned (kind : WindowKind) (window : ℤ × ℤ) : Prop where
  valid : datetimeMin ≤ window.1 ∧ window.1 ≤ datetimeMax
  start : kind.floor window.1 = .ok window.1
  finish : nextFixedWindow window.1 kind.step = .ok window.2

theorem aligned_iff {kind : WindowKind} {window : ℤ × ℤ} : Aligned kind window ↔
    ∃ k, window = (grid kind).cell k ∧ datetimeMin ≤ window.1 ∧ window.2 ≤ datetimeMax := by
  constructor
  · rintro ⟨⟨hmin, hmax⟩, hstart, hfinish⟩
    rw [floor_eq kind hmin hmax, Except.ok.injEq] at hstart
    have hafter := (grid kind).upper window.1
    rw [← hstart] at hfinish
    by_cases hend : (grid kind).start ((grid kind).index window.1 + 1) ≤ datetimeMax
    · rw [nextFixedWindow_ok kind _ (hmin.trans hafter.le) hend, Except.ok.injEq] at hfinish
      exact ⟨_, Prod.ext hstart.symm hfinish.symm, hmin, hfinish ▸ hend⟩
    · have hfrom : (grid kind).start ((grid kind).index window.1) ≤ datetimeMax :=
        ((grid kind).lower window.1).trans hmax
      obtain ⟨e, he⟩ := nextFixedWindow_fails kind _ hfrom (not_le.mp hend)
      simp [he] at hfinish
  · rintro ⟨k, rfl, hmin, hend⟩
    have hlt := (grid kind).cell_nonempty k
    have hmax : ((grid kind).cell k).1 ≤ datetimeMax := hlt.le.trans hend
    have hfloor := floor_eq kind hmin hmax
    rw [show ((grid kind).cell k).1 = (grid kind).start k from rfl, (grid kind).index_start]
      at hfloor
    exact ⟨⟨hmin, hmax⟩, hfloor, nextFixedWindow_ok kind k (hmin.trans hlt.le) hend⟩

theorem windowId_injective {kind : WindowKind} {v w : ℤ × ℤ} (hv : Aligned kind v)
    (hw : Aligned kind w) (h : windowId kind v = windowId kind w) : v = w := by
  obtain ⟨j, rfl, hjmin, -⟩ := aligned_iff.mp hv
  obtain ⟨k, rfl, hkmin, -⟩ := aligned_iff.mp hw
  simp only [windowId, List.append_assoc, List.cons_append] at h
  have hrest := (List.cons.inj (List.append_cancel_left h)).2
  exact congrArg (grid kind).cell ((grid kind).mono.injective
    (timeText_split (start_whole kind j) (start_whole kind k) hjmin hkmin hrest).1)

/-- The windows cover the horizon of a capture, and the page bound is charged to them and
    to no other window of their kind. -/
structure CoversHorizon (kind : WindowKind) (capture : ℤ) (windows : List (ℤ × ℤ)) : Prop where
  aligned : ∀ w ∈ windows, Aligned kind w
  contiguous : windows.IsChain (fun v w => v.2 = w.1)
  increasing : windows.Pairwise (fun v w => v.1 < w.1 ∧ v.2 < w.2)
  nonempty : ∀ w ∈ windows, w.1 < w.2
  intersects : ∀ w ∈ windows, ∃ t, capture ≤ t ∧ t < capture + horizon ∧ w.1 ≤ t ∧ t < w.2
  partitions : ∀ t, capture ≤ t → t < capture + horizon →
    ∃! w, w ∈ windows ∧ w.1 ≤ t ∧ t < w.2
  listed : ∀ w, Aligned kind w → (windowId kind w ∈ windowIds kind windows ↔ w ∈ windows)
  charged : ∀ w, Aligned kind w → ∀ pageRequests,
    pageBoundForWindow capture w.1 w.2 pageRequests =
      .ok (if w ∈ windows then max 10000 (3 * pageRequests) else 0)

section Cover
variable {kind : WindowKind} {capture : ℤ}

theorem cell_mem_windowsOf {j : ℤ} : (grid kind).cell j ∈ windowsOf kind capture ↔
    (grid kind).index capture ≤ j ∧ j ≤ lastWindow kind capture := by
  rw [windowsOf, (grid kind).cell_mem_cells, windowsOf_end]
  omega

theorem mem_windowsOf {w : ℤ × ℤ} : w ∈ windowsOf kind capture ↔ ∃ j, w = (grid kind).cell j ∧
    (grid kind).index capture ≤ j ∧ j ≤ lastWindow kind capture := by
  constructor
  · intro hw
    obtain ⟨j, -, -, rfl⟩ := (grid kind).mem_cells.mp hw
    exact ⟨j, rfl, cell_mem_windowsOf.mp hw⟩
  · rintro ⟨j, rfl, hj⟩
    exact cell_mem_windowsOf.mpr hj

theorem windowsOf_aligned (h : Representable kind capture) (hmin : datetimeMin ≤
    (grid kind).start ((grid kind).index capture)) (w : ℤ × ℤ) (hw : w ∈ windowsOf kind capture) :
    Aligned kind w := by
  obtain ⟨j, rfl, hfirst, hlast⟩ := mem_windowsOf.mp hw
  have hstart := (grid kind).mono.monotone hfirst
  have hend := (grid kind).mono.monotone (show j + 1 ≤ lastWindow kind capture + 1 by omega)
  exact aligned_iff.mpr ⟨j, rfl, hmin.trans hstart, hend.trans h.lastEnd⟩

theorem datetimeMin_le_floor (kind : WindowKind) {t : ℤ} (h : datetimeMin ≤ t) :
    datetimeMin ≤ (grid kind).start ((grid kind).index t) := by
  have hboundary : (grid kind).start ((grid kind).index datetimeMin) = datetimeMin := by
    cases kind <;> decide +kernel
  have hindex : (grid kind).index datetimeMin ≤ (grid kind).index t :=
    (grid kind).start_le_iff.mp (hboundary.le.trans h)
  exact hboundary.ge.trans ((grid kind).mono.monotone hindex)

theorem pageBound_cell (hmin : datetimeMin ≤ capture) (hend : capture + horizon ≤ datetimeMax)
    (j pageRequests : ℤ) :
    pageBoundForWindow capture ((grid kind).start j) ((grid kind).start (j + 1)) pageRequests =
      .ok (if (grid kind).cell j ∈ windowsOf kind capture then max 10000 (3 * pageRequests)
        else 0) := by
  have hpositive : capture < capture + horizon := by
    rw [horizon_eq]
    omega
  have hlow : datetimeMin ≤ capture + horizon := hmin.trans hpositive.le
  have hoverlap := (grid kind).overlaps_iff (j := j) hpositive
  have hmember := @cell_mem_windowsOf kind capture j
  rw [pageBoundForWindow, shift, if_pos ⟨hlow, hend⟩, ok_bind]
  by_cases h : (grid kind).cell j ∈ windowsOf kind capture
  · have hover := hoverlap.mpr (hmember.mp h)
    rw [if_pos h]
    exact if_neg (not_le.mpr hover)
  · have hapart := fun hover => h (hmember.mpr (hoverlap.mp hover))
    rw [if_neg h]
    exact if_pos (not_lt.mp hapart)

theorem coversHorizon (h : Representable kind capture) :
    CoversHorizon kind capture (windowsOf kind capture) := by
  have haligned := windowsOf_aligned h (datetimeMin_le_floor kind h.reading)
  refine ⟨haligned, (grid kind).cells_contiguous _ _, (grid kind).cells_increasing _ _,
    ?_, ?_, ?_, ?_, ?_⟩
  · intro w hw
    obtain ⟨j, rfl, -⟩ := mem_windowsOf.mp hw
    exact (grid kind).cell_nonempty j
  · intro w hw
    obtain ⟨j, rfl, hfirst, hlast⟩ := mem_windowsOf.mp hw
    have hpositive : capture < capture + horizon := by
      rw [horizon_eq]
      omega
    have hover := ((grid kind).overlaps_iff hpositive).mpr ⟨hfirst, hlast⟩
    have hbelow := lt_min_iff.mp hover
    exact ⟨max capture ((grid kind).start j), le_max_left _ _, hbelow.1, le_max_right _ _, hbelow.2⟩
  · intro t hfrom hto
    have hfirst : (grid kind).index capture ≤ (grid kind).index t :=
      (grid kind).start_le_iff.mp (((grid kind).lower capture).trans hfrom)
    have hlast : (grid kind).index t ≤ lastWindow kind capture :=
      (grid kind).start_le_iff.mp (((grid kind).lower t).trans (by omega))
    refine (grid kind).cells_cover hfirst ?_
    rw [windowsOf_end]
    omega
  · intro w hw
    rw [windowIds, List.mem_toFinset, List.mem_map]
    constructor
    · rintro ⟨v, hv, hid⟩
      exact windowId_injective (haligned v hv) hw hid ▸ hv
    · intro hmem
      exact ⟨w, hmem, rfl⟩
  · intro w hw pageRequests
    obtain ⟨j, rfl, -⟩ := aligned_iff.mp hw
    exact pageBound_cell h.reading h.horizonEnd j pageRequests

end Cover

theorem ofValue_value (kind : WindowKind) : WindowKind.ofValue? kind.value = some kind := by
  cases kind <;> decide

/-- For every aware capture the enumeration lists windows that cover the horizon, unless a
    date that it forms has no year of the calendar; then it fails. -/
theorem expectedWindows_cover (fromisoformat : Text → Option Datetime) (kind : WindowKind)
    (text : Text) (capture : Datetime) (hparsed : fromisoformat text = some capture)
    (haware : capture.Aware) :
    (Representable kind capture.instant →
      expectedWindowIds fromisoformat kind.value (.str text) =
        .ok (windowIds kind (windowsOf kind capture.instant)) ∧
      CoversHorizon kind capture.instant (windowsOf kind capture.instant)) ∧
    (¬Representable kind capture.instant →
      ∃ e, expectedWindowIds fromisoformat kind.value (.str text) = .error e) := by
  have htimezone : ¬capture.utcoffset = none := by
    intro hnone
    simp [Datetime.Aware, hnone] at haware
  have hpositive : (0 : ℤ) < horizon := by decide
  have hparse : parseTime fromisoformat (.str text) "captured_at" =
      if datetimeMin ≤ capture.instant ∧ capture.instant ≤ datetimeMax then .ok capture.instant
      else .error .overflowError := by
    simp only [parseTime, hparsed]
    exact if_neg htimezone
  rw [expectedWindowIds, hparse]
  constructor
  · intro h
    have hend := h.horizonEnd
    have hmin := h.reading
    rw [if_pos ⟨hmin, by linarith⟩, ok_bind, shift, if_pos ⟨by linarith, hend⟩, ok_bind,
      ofValue_value]
    simp only [expectedWindows_ok h, ok_bind]
    exact ⟨rfl, coversHorizon h⟩
  · intro h
    by_cases hreading : datetimeMin ≤ capture.instant ∧ capture.instant ≤ datetimeMax
    · rw [if_pos hreading, ok_bind, shift]
      by_cases hend : capture.instant + horizon ≤ datetimeMax
      · obtain ⟨e, he⟩ := expectedWindows_fails hreading.1 hend h
        have hlow := hreading.1
        rw [if_pos ⟨by linarith, hend⟩, ok_bind, ofValue_value]
        simp only [he]
        exact ⟨e, rfl⟩
      · rw [if_neg (fun hboth => hend hboth.2)]
        exact ⟨_, rfl⟩
    · rw [if_neg hreading]
      exact ⟨_, rfl⟩

section Samples

def sampleFromisoformat (text : Text) : Option Datetime :=
  if text = "2026-07-28T23:59:59Z".toList then some (.utc (seconds 1785283199))
  else if text = "9999-12-15T00:00:00Z".toList then some (.utc (seconds 253400832000))
  else none

/-- The horizon of a capture in the last days of the calendar has no end in it. -/
theorem lastDays_unlisted :
    ¬∀ (fromisoformat : Text → Option Datetime) (kind : WindowKind) (text : Text)
      (capture : Datetime), fromisoformat text = some capture → capture.Aware →
      ∃ windows, expectedWindowIds fromisoformat kind.value (.str text) =
          .ok (windowIds kind windows) ∧ CoversHorizon kind capture.instant windows := by
  intro h
  obtain ⟨windows, hok, -⟩ := h sampleFromisoformat .rollingHour "9999-12-15T00:00:00Z".toList
    (.utc (seconds 253400832000)) (by decide +kernel) rfl
  have hfails : expectedWindowIds sampleFromisoformat WindowKind.rollingHour.value
      (.str "9999-12-15T00:00:00Z".toList) = .error .overflowError := by
    have hparse : parseTime sampleFromisoformat (.str "9999-12-15T00:00:00Z".toList) "captured_at" =
        .ok (seconds 253400832000) := by decide +kernel
    rw [expectedWindowIds, hparse]
    rfl
  rw [hfails] at hok
  cases hok

/-- A capture one second before the end of a day, across the end of a month. -/
theorem expectedWindows_cover_sample :
    expectedWindowIds sampleFromisoformat "billing-month" (.str "2026-07-28T23:59:59Z".toList) =
      .ok (windowIds .billingMonth (windowsOf .billingMonth (seconds 1785283199))) ∧
    CoversHorizon .billingMonth (seconds 1785283199)
      (windowsOf .billingMonth (seconds 1785283199)) :=
  (expectedWindows_cover sampleFromisoformat .billingMonth "2026-07-28T23:59:59Z".toList
    (.utc (seconds 1785283199)) (by decide +kernel) rfl).1
    ⟨by decide +kernel, by decide +kernel, by decide +kernel⟩

end Samples

end PredictionMarketMonitor.ProjectionWindows
