import PredictionMarketMonitor.CollectionBase
import PredictionMarketMonitor.SteppedWalk

set_option autoImplicit false

/-!
# The collection grid

`app/collection/slots.py`: the three-hour slots at minute 17 that database time
has reached, materialized past a stored cursor.
-/
namespace PredictionMarketMonitor.SlotGrid

open CanonicalJson CivilTime CollectionBase FallibleSteps SteppedWalk

/-- `value + delta` for a positive delta. -/
def later (value : Instant) (delta : ℤ) : Result Instant := do
  require (value + delta ≤ datetimeMax) .overflowError
  return value + delta

/-- `value.replace(hour=hour, minute=minute, second=0, microsecond=0)`. -/
def replaceTime (value : Instant) (hour minute : ℤ) : Instant :=
  value - value % hours 24 + hours hour + minutes minute

def gridHours : ℤ := 3

def gridMinute : ℤ := 17

structure SchedulerCursorState where
  scopeVersion : Text
  lastMaterializedSlotUtc : Option Datetime
deriving DecidableEq

structure CollectionSlotDraft where
  scopeVersion : Text
  dueSlotUtc : Instant
  scheduledKey : Text
  materializedAt : Instant
deriving DecidableEq

structure SlotMaterializationPlan where
  expectedCursor : SchedulerCursorState
  slots : List CollectionSlotDraft
  nextCursor : SchedulerCursorState
deriving DecidableEq

def activationSlot (activationAt : Datetime) : Result Instant := do
  let activation ← requireUtc activationAt
  let hour := (civil activation).hour
  let candidate := replaceTime activation (hour - hour % gridHours) gridMinute
  if candidate ≤ activation then later candidate (hours gridHours) else return candidate

/-- Where the walk starts: one interval past the cursor, if there is one. -/
def resume (start : Instant) : Option Datetime → Result Instant
  | none => .ok start
  | some cursor => do
    let last ← requireUtc cursor
    require (¬((civil last).minute ≠ gridMinute ∨ (civil last).hour % gridHours ≠ 0))
      (fail .invalidContract 422)
    later last (hours gridHours)

def scheduledKey (scopeVersion : Text) (due : Instant) : Text :=
  "scheduled:".toList ++ scopeVersion ++ ':' :: formatUtc due

def draft (scopeVersion : Text) (now due : Instant) : CollectionSlotDraft :=
  ⟨scopeVersion, due, scheduledKey scopeVersion due, now⟩

theorem hours_pos : 0 < hours gridHours := by decide

/-- The loop `while due <= now`. -/
def dueSlots (start now : Instant) : Result (List Instant) :=
  present (walk (· ≤ now) datetimeMax (hours gridHours) hours_pos start) .overflowError

def SchedulerCursorState.advance (cursor : SchedulerCursorState) (dues : List Instant) :
    SchedulerCursorState :=
  match dues.getLast? with
  | none => cursor
  | some last => ⟨cursor.scopeVersion, some (.utc last)⟩

def planSlotMaterialization (cursor : SchedulerCursorState)
    (deploymentActivationAt dbNow : Datetime) : Result SlotMaterializationPlan := do
  let now ← requireUtc dbNow
  let first ← activationSlot deploymentActivationAt
  let start ← resume first cursor.lastMaterializedSlotUtc
  let dues ← dueSlots start now
  return ⟨cursor, dues.map (draft cursor.scopeVersion now), cursor.advance dues⟩

/-- Successive materializations, each at the cursor that the one before it left. -/
def materialize (deploymentActivationAt : Datetime) :
    SchedulerCursorState → List Datetime → Result (List SlotMaterializationPlan)
  | _, [] => .ok []
  | cursor, dbNow :: rest => do
    let plan ← planSlotMaterialization cursor deploymentActivationAt dbNow
    let plans ← materialize deploymentActivationAt plan.nextCursor rest
    return plan :: plans

/-- The due times of every slot of the plans, in the order in which they are inserted. -/
def dues (plans : List SlotMaterializationPlan) : List Instant :=
  (plans.flatMap SlotMaterializationPlan.slots).map CollectionSlotDraft.dueSlotUtc

def OnGrid (t : Instant) : Prop :=
  (civil t).hour % 3 = 0 ∧ (civil t).minute = 17 ∧ (civil t).second = 0 ∧
    (civil t).microsecond = 0

instance (t : Instant) : Decidable (OnGrid t) := inferInstanceAs (Decidable (_ ∧ _))

def gridEnd : Instant := seconds 253402291020

def BeforeGridEnd (value : Datetime) : Prop :=
  value.Aware ∧ datetimeMin ≤ value.instant ∧ value.instant < gridEnd

def firstAfter (t : Instant) : Instant := t - (t - minutes 17) % hours 3 + hours 3

section Arithmetic

theorem gridStep_eq : hours gridHours = 10800000000 := rfl

theorem gridEnd_eq : gridEnd = 253402291020000000 := rfl

theorem firstAfter_eq (t : ℤ) :
    firstAfter t = t - (t - 1020000000) % 10800000000 + 10800000000 := rfl

theorem onGrid_iff {t : ℤ} : OnGrid t ↔ t % 10800000000 = 1020000000 := by
  have hhour : (civil t).hour = t / 1000000 % 86400 / 3600 := rfl
  have hminute : (civil t).minute = t / 1000000 % 86400 / 60 % 60 := rfl
  have hsecond : (civil t).second = t / 1000000 % 86400 % 60 := rfl
  have hmicro : (civil t).microsecond = t % 1000000 := rfl
  rw [OnGrid, hhour, hminute, hsecond, hmicro]
  omega

theorem requireUtc_of {value : Datetime} (h : BeforeGridEnd value) :
    requireUtc value = .ok value.instant := by
  obtain ⟨haware, hmin, hend⟩ := h
  have hmax : value.instant ≤ datetimeMax := by
    refine (le_of_lt hend).trans ?_
    decide
  exact requireUtc_eq_ok.mpr ⟨⟨haware, .inr ⟨hmin, hmax⟩⟩, rfl⟩

theorem later_of {value delta : ℤ} (h : value + delta ≤ datetimeMax) :
    later value delta = .ok (value + delta) := by
  rw [later, require_of h, ok_bind]
  rfl

/-- Minute 17 of the grid hour of `t` is the slot at or before `t`, or the one after it. -/
theorem candidate_cases (t : ℤ) :
    replaceTime t ((civil t).hour - (civil t).hour % gridHours) gridMinute =
        t - (t - 1020000000) % 10800000000 ∨
      replaceTime t ((civil t).hour - (civil t).hour % gridHours) gridMinute =
        t - (t - 1020000000) % 10800000000 + 10800000000 := by
  have hvalue : replaceTime t ((civil t).hour - (civil t).hour % gridHours) gridMinute =
      t - t % 86400000000 +
        (t / 1000000 % 86400 / 3600 - t / 1000000 % 86400 / 3600 % 3) * 60 * 60 * 1000000 +
        1020000000 := rfl
  have hcases : ∀ t : ℤ, t - t % 86400000000 +
      (t / 1000000 % 86400 / 3600 - t / 1000000 % 86400 / 3600 % 3) * 60 * 60 * 1000000 +
        1020000000 = t - (t - 1020000000) % 10800000000 ∨
      t - t % 86400000000 +
      (t / 1000000 % 86400 / 3600 - t / 1000000 % 86400 / 3600 % 3) * 60 * 60 * 1000000 +
        1020000000 = t - (t - 1020000000) % 10800000000 + 10800000000 := by
    intro t
    omega
  rw [hvalue]
  exact hcases t

theorem activationSlot_of {activationAt : Datetime} (h : BeforeGridEnd activationAt) :
    activationSlot activationAt = .ok (firstAfter activationAt.instant) := by
  obtain ⟨t, ht⟩ : ∃ t : ℤ, activationAt.instant = t := ⟨_, rfl⟩
  have hend : t < 253402291020000000 := by
    rw [← ht]
    exact h.2.2
  have hshift : activationSlot activationAt = (do
      let candidate := replaceTime t ((civil t).hour - (civil t).hour % gridHours) gridMinute
      if candidate ≤ t then later candidate (hours gridHours) else return candidate) := by
    rw [activationSlot, requireUtc_of h, ok_bind, ht]
  rw [hshift, ht, firstAfter_eq]
  rcases candidate_cases t with hbefore | hafter
  · have hle : t - (t - 1020000000) % 10800000000 ≤ t := by omega
    have hfits : t - (t - 1020000000) % 10800000000 + 10800000000 ≤ 253402300799999999 := by omega
    dsimp only
    rw [hbefore, if_pos hle]
    exact later_of hfits
  · have hgt : ¬t - (t - 1020000000) % 10800000000 + 10800000000 ≤ t := by omega
    dsimp only
    rw [hafter, if_neg hgt]
    rfl

end Arithmetic

section Plan

/-- The cursor after the first slots of the grid have been materialized. -/
def cursorAt (scopeVersion : Text) (first : Instant) : ℕ → SchedulerCursorState
  | 0 => ⟨scopeVersion, none⟩
  | count + 1 => ⟨scopeVersion, some (.utc (first + hours gridHours * count))⟩

def reached (first : Instant) (now : Datetime) : ℕ :=
  steps (hours gridHours) (now.instant + 1 - first)

variable {activation now : Datetime} {scopeVersion : Text} {first : Instant} {count : ℕ}

theorem cursorAt_scopeVersion : (cursorAt scopeVersion first count).scopeVersion = scopeVersion := by
  cases count <;> rfl

theorem onGrid_shift {t : ℤ} (h : OnGrid t) (count : ℕ) : OnGrid (t + hours gridHours * count) := by
  have hstep : (t + 10800000000 * (count : ℤ)) % 10800000000 = t % 10800000000 :=
    Int.add_mul_emod_self_left t 10800000000 count
  rw [onGrid_iff, gridStep_eq, hstep]
  exact onGrid_iff.mp h

theorem onGrid_next {t : ℤ} (h : OnGrid t) (hend : t < gridEnd) :
    t + hours gridHours ≤ gridEnd := by
  have hgrid := onGrid_iff.mp h
  rw [gridEnd_eq] at hend ⊢
  rw [gridStep_eq]
  omega

theorem resume_cursorAt (hfirst : OnGrid first) (hmin : datetimeMin ≤ first)
    (hcount : first + hours gridHours * count ≤ gridEnd) :
    resume first (cursorAt scopeVersion first count).lastMaterializedSlotUtc =
      .ok (first + hours gridHours * count) := by
  cases count with
  | zero =>
    have hzero : first + hours gridHours * ((0 : ℕ) : ℤ) = first := by simp
    rw [hzero]
    rfl
  | succ count =>
    have hnext : first + hours gridHours * count + hours gridHours =
        first + hours gridHours * ((count + 1 : ℕ) : ℤ) := by
      push_cast
      ring
    have hgrid := onGrid_shift hfirst count
    rw [← hnext] at hcount
    have hbefore : BeforeGridEnd (.utc (first + hours gridHours * count)) := by
      have hpositive : 0 ≤ hours gridHours * (count : ℤ) := by
        rw [gridStep_eq]
        positivity
      refine ⟨rfl, ?_, ?_⟩
      · exact hmin.trans (le_add_of_nonneg_right hpositive)
      · exact lt_of_lt_of_le (lt_add_of_pos_right _ hours_pos) hcount
    have haligned : ¬((civil (first + hours gridHours * count)).minute ≠ gridMinute ∨
        (civil (first + hours gridHours * count)).hour % gridHours ≠ 0) := by
      rintro (hminute | hhour)
      · exact hminute hgrid.2.1
      · exact hhour hgrid.1
    rw [← hnext]
    change (do
      let last ← requireUtc (.utc (first + hours gridHours * count))
      require _ _
      later last (hours gridHours)) = _
    rw [requireUtc_of hbefore, ok_bind]
    change (do
      require (¬((civil (first + hours gridHours * count)).minute ≠ gridMinute ∨
        (civil (first + hours gridHours * count)).hour % gridHours ≠ 0)) _
      later (first + hours gridHours * count) (hours gridHours)) = _
    rw [require_of haligned, ok_bind]
    exact later_of (hcount.trans (by decide))

theorem reached_le (hfirst : OnGrid first) (hend : first ≤ gridEnd) (hnow : now.instant < gridEnd) :
    first + hours gridHours * reached first now ≤ gridEnd := by
  cases hcount : reached first now with
  | zero => simpa using hend
  | succ count =>
    have hlast : count < reached first now := by omega
    have hdue := (lt_steps hours_pos).mp hlast
    have hbefore : first + hours gridHours * count < gridEnd := by
      have hle : first + hours gridHours * count < now.instant + 1 := lt_sub_iff_add_lt'.mp hdue
      exact lt_of_le_of_lt (Int.lt_add_one_iff.mp hle) hnow
    have hnext := onGrid_next (onGrid_shift hfirst count) hbefore
    calc first + hours gridHours * ((count + 1 : ℕ) : ℤ)
        = first + hours gridHours * count + hours gridHours := by push_cast; ring
      _ ≤ gridEnd := hnext

/-- A grid with a first slot that can be formed. -/
structure Starts (first : Instant) : Prop where
  onGrid : OnGrid first
  min : datetimeMin ≤ first
  formed : first ≤ gridEnd

theorem firstAfter_starts (h : BeforeGridEnd activation) : Starts (firstAfter activation.instant) := by
  obtain ⟨t, ht⟩ : ∃ t : ℤ, activation.instant = t := ⟨_, rfl⟩
  have hmin : seconds (-62135596800) ≤ t := by
    rw [← ht]
    exact h.2.1
  have hend : t < 253402291020000000 := by
    rw [← ht]
    exact h.2.2
  have hgrid : (t - (t - 1020000000) % 10800000000 + 10800000000) % 10800000000 = 1020000000 := by
    omega
  have hformed : t - (t - 1020000000) % 10800000000 + 10800000000 ≤ 253402291020000000 := by
    omega
  have hafter : t ≤ t - (t - 1020000000) % 10800000000 + 10800000000 := by omega
  rw [ht, firstAfter_eq]
  exact ⟨onGrid_iff.mpr hgrid, hmin.trans hafter, hformed⟩

theorem dueSlots_of {start : Instant} (hend : ∀ next : ℕ, steps (hours gridHours)
      (now.instant + 1 - start) = next → start ≤ now.instant →
        start + hours gridHours * next ≤ gridEnd) :
    dueSlots start now.instant = .ok (progression start (hours gridHours)
      (steps (hours gridHours) (now.instant + 1 - start))) := by
  have hwalk : walk (· ≤ now.instant) datetimeMax (hours gridHours) hours_pos start =
      some (progression start (hours gridHours)
        (steps (hours gridHours) (now.instant + 1 - start))) := by
    refine walk_below (fun y => Int.lt_add_one_iff.symm) fun hlt => ?_
    exact (hend _ rfl (Int.lt_add_one_iff.mp hlt)).trans (by decide)
  rw [dueSlots, hwalk]
  rfl

theorem plan_cursorAt (hactivation : BeforeGridEnd activation) (hnow : BeforeGridEnd now)
    (hcount : firstAfter activation.instant + hours gridHours * count ≤ gridEnd) :
    planSlotMaterialization (cursorAt scopeVersion (firstAfter activation.instant) count)
        activation now =
      .ok {
        expectedCursor := cursorAt scopeVersion (firstAfter activation.instant) count
        slots := (progression (firstAfter activation.instant + hours gridHours * count)
          (hours gridHours) (reached (firstAfter activation.instant) now - count)).map
            (draft scopeVersion now.instant)
        nextCursor := cursorAt scopeVersion (firstAfter activation.instant)
          (max count (reached (firstAfter activation.instant) now)) } := by
  have hstarts := firstAfter_starts hactivation
  have hactivated := activationSlot_of hactivation
  generalize firstAfter activation.instant = first at *
  have hresume := @resume_cursorAt scopeVersion _ _ hstarts.onGrid hstarts.min hcount
  have hdue : steps (hours gridHours) (now.instant + 1 - (first + hours gridHours * count)) =
      reached first now - count := by
    have hgap : now.instant + 1 - (first + hours gridHours * count) =
        now.instant + 1 - first - hours gridHours * count := by ring
    rw [hgap]
    exact steps_sub hours_pos count
  have hdues : dueSlots (first + hours gridHours * count) now.instant =
      .ok (progression (first + hours gridHours * count) (hours gridHours)
        (reached first now - count)) := by
    rw [← hdue]
    refine dueSlots_of fun next hnext hle => ?_
    rw [hdue] at hnext
    have hreached := reached_le hstarts.onGrid hstarts.formed hnow.2.2
    by_cases hmore : count ≤ reached first now
    · have htotal : first + hours gridHours * count + hours gridHours * next =
          first + hours gridHours * (reached first now : ℤ) := by
        rw [← hnext]
        push_cast [hmore]
        ring
      rw [htotal]
      exact hreached
    · have hnone : next = 0 := by omega
      rw [hnone]
      simpa using hcount
  rw [planSlotMaterialization, requireUtc_of hnow, ok_bind, hactivated, ok_bind, hresume, ok_bind,
    hdues, ok_bind, cursorAt_scopeVersion]
  have hadvance : (cursorAt scopeVersion first count).advance
      (progression (first + hours gridHours * count) (hours gridHours)
        (reached first now - count)) =
      cursorAt scopeVersion first (max count (reached first now)) := by
    cases hnew : reached first now - count with
    | zero =>
      have hmax : max count (reached first now) = count := by omega
      rw [hmax]
      rfl
    | succ new =>
      have hmax : max count (reached first now) = count + new + 1 := by omega
      have hlast : first + hours gridHours * count + hours gridHours * new =
          first + hours gridHours * ((count + new : ℕ) : ℤ) := by
        push_cast
        ring
      rw [SchedulerCursorState.advance, progression_getLast?, hmax, hlast, cursorAt_scopeVersion]
      rfl
  rw [hadvance]
  rfl

end Plan

section Run
variable {activation : Datetime} {scopeVersion : Text} {first : Instant} {count : ℕ}

/-- How far the times have carried a cursor that stood after `count` slots. -/
def reachedBy (first : Instant) (count : ℕ) (times : List Datetime) : ℕ :=
  times.foldl (fun furthest now => max furthest (reached first now)) count

theorem lt_reachedBy {times : List Datetime} {i : ℕ} :
    i < reachedBy first count times ↔ i < count ∨ ∃ now ∈ times, i < reached first now := by
  induction times generalizing count with
  | nil => simp [reachedBy]
  | cons now times ih =>
    have hcons : reachedBy first count (now :: times) =
        reachedBy first (max count (reached first now)) times := rfl
    rw [hcons, ih, lt_max_iff, or_assoc]
    simp only [List.mem_cons, exists_eq_or_imp]

theorem le_reachedBy {times : List Datetime} : count ≤ reachedBy first count times := by
  refine forall_lt_iff_le.mp fun i hi => ?_
  exact lt_reachedBy.mpr (.inl hi)

theorem materialize_cursorAt (hactivation : BeforeGridEnd activation) {times : List Datetime}
    (htimes : ∀ now ∈ times, BeforeGridEnd now)
    (hcount : firstAfter activation.instant + hours gridHours * count ≤ gridEnd) :
    ∃ plans, materialize activation
          (cursorAt scopeVersion (firstAfter activation.instant) count) times = .ok plans ∧
      plans.length = times.length ∧
      (∀ n, dues (plans.take n) =
        progression (firstAfter activation.instant + hours gridHours * count) (hours gridHours)
          (reachedBy (firstAfter activation.instant) count (times.take n) - count)) ∧
      ∀ plan ∈ plans, ∀ slot ∈ plan.slots, slot.scopeVersion = scopeVersion ∧
        slot.scheduledKey = scheduledKey scopeVersion slot.dueSlotUtc := by
  induction times generalizing count with
  | nil =>
    refine ⟨[], rfl, rfl, fun n => ?_, by simp⟩
    simp [dues, reachedBy, progression]
  | cons now times ih =>
    obtain ⟨hnow, htimes⟩ := List.forall_mem_cons.mp htimes
    have hstarts := firstAfter_starts hactivation
    have hplan := @plan_cursorAt _ _ scopeVersion _ hactivation hnow hcount
    have hreached := reached_le hstarts.onGrid hstarts.formed hnow.2.2
    generalize firstAfter activation.instant = first at *
    have hnext : first + hours gridHours * (max count (reached first now) : ℕ) ≤ gridEnd := by
      rcases le_total count (reached first now) with hle | hle
      · rw [max_eq_right hle]
        exact hreached
      · rw [max_eq_left hle]
        exact hcount
    obtain ⟨plan, hplan, hslots, hcursor⟩ : ∃ plan,
        planSlotMaterialization (cursorAt scopeVersion first count) activation now = .ok plan ∧
          plan.slots = (progression (first + hours gridHours * count) (hours gridHours)
            (reached first now - count)).map (draft scopeVersion now.instant) ∧
          plan.nextCursor = cursorAt scopeVersion first (max count (reached first now)) :=
      ⟨_, hplan, rfl, rfl⟩
    obtain ⟨plans, hplans, hlength, hdues, hkeys⟩ := ih htimes hnext
    refine ⟨plan :: plans, ?_, congrArg Nat.succ hlength, fun n => ?_, ?_⟩
    · rw [materialize, hplan, ok_bind, hcursor, hplans, ok_bind]
      rfl
    · cases n with
      | zero => simp [dues, reachedBy, progression]
      | succ n =>
        have hcons : reachedBy first count ((now :: times).take (n + 1)) =
            reachedBy first (max count (reached first now)) (times.take n) := rfl
        have hrest := @le_reachedBy first (max count (reached first now)) (times.take n)
        have hsplit : reachedBy first (max count (reached first now)) (times.take n) - count =
            (reached first now - count) + (reachedBy first (max count (reached first now))
              (times.take n) - max count (reached first now)) := by omega
        have hgone : first + hours gridHours * (max count (reached first now) : ℕ) =
            first + hours gridHours * count + hours gridHours * (reached first now - count : ℕ) := by
          have hsum : max count (reached first now) = count + (reached first now - count) := by omega
          rw [hsum]
          push_cast
          ring
        rw [hcons, hsplit, progression_append, ← hgone, ← hdues n]
        simp [dues, hslots, draft, Function.comp_def]
    · intro made hmade
      rcases List.mem_cons.mp hmade with rfl | hmade
      · intro slot hslot
        rw [hslots] at hslot
        obtain ⟨due, _, rfl⟩ := List.mem_map.mp hslot
        exact ⟨rfl, rfl⟩
      · exact hkeys made hmade

theorem mem_grid_after {t after : ℤ} :
    OnGrid t ∧ after < t ↔ ∃ i : ℕ, t = firstAfter after + hours gridHours * i := by
  rw [onGrid_iff, firstAfter_eq, gridStep_eq]
  constructor
  · rintro ⟨hgrid, hafter⟩
    refine ⟨((t - (after - (after - 1020000000) % 10800000000 + 10800000000)) /
      10800000000).toNat, ?_⟩
    omega
  · rintro ⟨i, hi⟩
    omega

theorem plan_dues (scopeVersion : Text) {now : Datetime} (hactivation : BeforeGridEnd activation)
    (hnow : BeforeGridEnd now) :
    ∃ plan, planSlotMaterialization ⟨scopeVersion, none⟩ activation now = .ok plan ∧
      (dues [plan]).Pairwise (· < ·) ∧
      ∀ t, t ∈ dues [plan] ↔ OnGrid t ∧ activation.instant < t ∧ t ≤ now.instant := by
  have hzero : firstAfter activation.instant + hours gridHours * ((0 : ℕ) : ℤ) =
      firstAfter activation.instant := by simp
  have hplan := @plan_cursorAt _ _ scopeVersion 0 hactivation hnow (by
    rw [hzero]
    exact (firstAfter_starts hactivation).formed)
  rw [hzero] at hplan
  have hdues : ∀ plan : SlotMaterializationPlan, plan.slots =
      (progression (firstAfter activation.instant) (hours gridHours)
        (reached (firstAfter activation.instant) now)).map (draft scopeVersion now.instant) →
      dues [plan] = progression (firstAfter activation.instant) (hours gridHours)
        (reached (firstAfter activation.instant) now) := by
    intro plan hslots
    simp [dues, hslots, Function.comp_def, draft]
  refine ⟨_, hplan, ?_, fun t => ?_⟩
  · rw [hdues _ rfl]
    exact progression_pairwise hours_pos _
  · rw [hdues _ rfl, mem_progression, ← and_assoc, mem_grid_after]
    constructor
    · rintro ⟨i, hi, rfl⟩
      exact ⟨⟨i, rfl⟩, Int.lt_add_one_iff.mp (lt_sub_iff_add_lt'.mp ((lt_steps hours_pos).mp hi))⟩
    · rintro ⟨⟨i, rfl⟩, hle⟩
      refine ⟨i, (lt_steps hours_pos).mpr ?_, rfl⟩
      exact lt_sub_iff_add_lt'.mpr (Int.lt_add_one_iff.mpr hle)

end Run

section Results

/-- The plans of successive times emit each slot after the activation once, as soon as a
    time has reached it. -/
structure EmitsGrid (scopeVersion : Text) (activation : Datetime) (times : List Datetime)
    (plans : List SlotMaterializationPlan) : Prop where
  -- after every number of calls, with the largest of the times so far as the bound
  emitted : ∀ n t, t ∈ dues (plans.take n) ↔
    OnGrid t ∧ activation.instant < t ∧ ∃ now ∈ times.take n, t ≤ now.instant
  increasing : (dues plans).Pairwise (· < ·)
  single : ∀ latest ∈ times, (∀ now ∈ times, now.instant ≤ latest.instant) →
    ∃ plan, planSlotMaterialization ⟨scopeVersion, none⟩ activation latest = .ok plan ∧
      dues [plan] = dues plans
  keyed : ∀ plan ∈ plans, ∀ slot ∈ plan.slots, slot.scopeVersion = scopeVersion ∧
    slot.scheduledKey = scheduledKey scopeVersion slot.dueSlotUtc

/-- Materialization is complete, and it does not depend on how the calls are batched. -/
theorem slots_complete (scopeVersion : Text) {activation : Datetime} {times : List Datetime}
    (hactivation : BeforeGridEnd activation) (htimes : ∀ now ∈ times, BeforeGridEnd now) :
    ∃ plans, materialize activation ⟨scopeVersion, none⟩ times = .ok plans ∧
      plans.length = times.length ∧ EmitsGrid scopeVersion activation times plans := by
  have hstarts := firstAfter_starts hactivation
  have hnone : firstAfter activation.instant + hours gridHours * (0 : ℕ) ≤ gridEnd := by
    simpa using hstarts.formed
  obtain ⟨plans, hplans, hlength, hdues, hkeys⟩ :=
    @materialize_cursorAt _ scopeVersion _ hactivation _ htimes hnone
  have hstart : firstAfter activation.instant + hours gridHours * ((0 : ℕ) : ℤ) =
      firstAfter activation.instant := by simp
  simp only [hstart, Nat.sub_zero] at hdues
  have hall : dues plans = progression (firstAfter activation.instant) (hours gridHours)
      (reachedBy (firstAfter activation.instant) 0 times) := by
    have htake := hdues times.length
    rwa [← hlength, List.take_length, hlength, List.take_length] at htake
  refine ⟨plans, hplans, hlength, ⟨fun n t => ?_, ?_, fun latest hlatest hmax => ?_, hkeys⟩⟩
  · rw [hdues, mem_progression, ← and_assoc, mem_grid_after]
    constructor
    · rintro ⟨i, hi, rfl⟩
      refine ⟨⟨i, rfl⟩, ?_⟩
      obtain ⟨now, hnow, hdue⟩ := (lt_reachedBy.mp hi).resolve_left (Nat.not_lt_zero i)
      have hle := lt_sub_iff_add_lt'.mp ((lt_steps hours_pos).mp hdue)
      exact ⟨now, hnow, Int.lt_add_one_iff.mp hle⟩
    · rintro ⟨⟨i, rfl⟩, now, hnow, hle⟩
      refine ⟨i, lt_reachedBy.mpr (.inr ⟨now, hnow, ?_⟩), rfl⟩
      exact (lt_steps hours_pos).mpr (lt_sub_iff_add_lt'.mpr (Int.lt_add_one_iff.mpr hle))
  · rw [hall]
    exact progression_pairwise hours_pos _
  · refine ⟨_, @plan_cursorAt _ _ _ 0 hactivation (htimes latest hlatest) hnone, ?_⟩
    have hfurthest : reachedBy (firstAfter activation.instant) 0 times =
        reached (firstAfter activation.instant) latest := by
      refine eq_of_forall_lt_iff fun i => ?_
      rw [lt_reachedBy]
      constructor
      · rintro (hi | ⟨now, hnow, hi⟩)
        · exact absurd hi (Nat.not_lt_zero i)
        · refine lt_of_lt_of_le hi (steps_mono hours_pos ?_)
          exact sub_le_sub_right (Int.add_le_add_right (hmax now hnow) 1) _
      · exact fun hi => .inr ⟨latest, hlatest, hi⟩
    rw [hall, hfurthest, hstart]
    simp [dues, Function.comp_def, draft]

/-- A clock that steps back and stands still: 2026-08-01 from 00:17 on. -/
theorem slots_complete_restart : ∃ plans, materialize (.utc (seconds 1785543420))
      ⟨"scope".toList, none⟩ [.utc (seconds 1785564000), .utc (seconds 1785560000),
        .utc (seconds 1785564000)] = .ok plans ∧ plans.length = 3 ∧
      EmitsGrid "scope".toList (.utc (seconds 1785543420)) [.utc (seconds 1785564000),
        .utc (seconds 1785560000), .utc (seconds 1785564000)] plans :=
  slots_complete _ ⟨rfl, by decide, by decide⟩ (by simp [BeforeGridEnd]; decide)

/-- From the last slot on, the loop cannot form the time after a slot that is due; and
    midnight of the first day, nine hours east, has no reading in UTC. -/
theorem slots_overflow :
    BeforeGridEnd (.utc (seconds 253402214400)) ∧ OnGrid gridEnd ∧
      seconds 253402214400 < gridEnd ∧
      materialize (.utc (seconds 253402214400)) ⟨"scope".toList, none⟩ [.utc gridEnd] =
        .error .overflowError ∧
      materialize ⟨datetimeMin - hours 9, some 32400⟩ ⟨"scope".toList, none⟩
        [.utc (seconds 1785564000)] = .error .overflowError := by
  refine ⟨⟨rfl, by decide, by decide⟩, by decide +kernel, by decide, by decide +kernel,
    by decide +kernel⟩

end Results

end PredictionMarketMonitor.SlotGrid
